import RuleWatch.Number.Binary64
/-!
  Decimal numbers `digits × 10 ^ exponent` beside double-precision ones: the
  magnitude nearest to a decimal, and the shortest decimal that reads back as a
  given magnitude, which is to say that this magnitude is the nearest to it.
-/

namespace RuleWatch

structure Decimal where
  digits : Nat
  exponent : Int
deriving DecidableEq

/-- Which of two equally near decimals is taken. -/
inductive Tie where
  | up
  | toEven
deriving DecidableEq

namespace Decimal

/-- The magnitude nearest to a decimal. A number of at least `10 ^ 309` is
beyond all finite ones, and one below `2 ^ -1080` is nearest to zero; these two
are decided by size alone, so that a huge exponent is never written out. -/
def nearest (d : Decimal) : Nat :=
  if d.digits = 0 then 0
  else if 0 ≤ d.exponent then
    if 309 ≤ d.exponent then Binary64.infinity
    else Binary64.nearestRatio (d.digits * 10 ^ d.exponent.toNat) 1
  else
    let places := d.exponent.natAbs
    if d.digits.log2 + 1081 < 3 * places then 0
    else Binary64.nearestRatio d.digits (10 ^ places)

/-- The decimal with the given exponent that reads back as `magnitude`, if
there is one: of the two neighbours of the number on the grid of that exponent
the one that does, and of two that do the nearer. -/
def onGrid? (tie : Tie) (magnitude : Nat) (exponent : Int) : Option Decimal :=
  let num := Binary64.units magnitude * 10 ^ (-exponent).toNat
  let den := 2 ^ 1074 * 10 ^ exponent.toNat
  let low : Decimal := ⟨num / den, exponent⟩
  let high : Decimal := ⟨num / den + 1, exponent⟩
  match decide (low.nearest = magnitude), decide (high.nearest = magnitude) with
  | false, false => none
  | true, false => some low
  | false, true => some high
  | true, true =>
    match compare (2 * (num % den)) den with
    | .lt => some low
    | .gt => some high
    | .eq => match tie with
      | .up => some high
      | .toEven => if low.digits % 2 = 0 then some low else some high

/-- The exact value of a magnitude, with `1074` places. -/
def exact (magnitude : Nat) : Decimal :=
  ⟨Binary64.units magnitude * 5 ^ 1074, -1074⟩

/-- The decimal with the fewest digits that reads back as `magnitude`, and the
nearest of those. The grids are searched from the coarsest that could hold one;
`17` digits suffice, which is at most `19` grids below it. -/
def shortest (tie : Tie) (magnitude : Nat) : Decimal :=
  if magnitude = 0 then ⟨0, 0⟩
  else
    let bits : Int := (Binary64.units magnitude).log2 - 1074
    let coarsest := bits * 30103 / 100000 + 2
    ((List.range 24).findSome? fun (i : Nat) => onGrid? tie magnitude (coarsest - i)).getD (exact magnitude)

end Decimal

end RuleWatch
