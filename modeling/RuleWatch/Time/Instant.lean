import RuleWatch.Number.Digits
/-!
  Instants: seconds since the start of 1970, and nanoseconds within the second. A
  leap second is the second before it with nanoseconds from `10 ^ 9` on.
-/

namespace RuleWatch

/-- A number in decimal, with zeros before it up to a width. -/
def padded (width n : Nat) : String := String.ofList (paddedDigits 10 width n)

structure Instant where
  seconds : Int
  nanos : Nat
deriving DecidableEq

namespace Instant

def nanosPerSecond : Nat := 1000000000

/-- Seconds count first, nanoseconds decide among equal ones. -/
instance : Ord Instant :=
  ⟨fun a b => (compare a.seconds b.seconds).then (compare a.nanos b.nanos)⟩

/-- The later of two instants. -/
def latest (a b : Instant) : Instant := if compare a b = .lt then b else a

/-- The time of day in hours, minutes and seconds; a leap second counts `60`. -/
def clockFace (t : Instant) : Nat × Nat × Nat :=
  let second := (t.seconds % 86400).toNat
  (second / 3600, second / 60 % 60, second % 60 + t.nanos / nanosPerSecond)

/-- The nanoseconds within the second, be it a leap second or not. -/
def fraction (t : Instant) : Nat := t.nanos % nanosPerSecond

/-- The time of day, to the microsecond. -/
def timeOfDay (t : Instant) : String :=
  let (hour, minute, second) := t.clockFace
  padded 2 hour ++ ":" ++ padded 2 minute ++ ":" ++ padded 2 second ++ "." ++
    padded 6 (t.fraction / 1000)

end Instant

/-- A clock, given by its readings, and how many of them have been taken. -/
structure Clock where
  reading : Nat → Instant
  taken : Nat

namespace Clock

def stopped (t : Instant) : Clock := ⟨fun _ => t, 0⟩

/-- The next reading. -/
def now (c : Clock) : Instant := c.reading c.taken

/-- The clock after its next reading has been taken. -/
def tick (c : Clock) : Clock := { c with taken := c.taken + 1 }

end Clock

end RuleWatch
