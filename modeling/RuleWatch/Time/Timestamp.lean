import RuleWatch.Number.Power
import RuleWatch.Text.Parser
import RuleWatch.Time.Calendar
/-!
  Timestamps: instants written as date, time of day and offset. They are written
  in universal time with as many digits of the second as needed, in groups of
  three. They are read with any offset, with blanks between the parts, and with
  fewer digits than are written.
-/

namespace RuleWatch.Timestamp

/-! ## Writing -/

/-- The text of a year: four digits, or a sign and at least four digits. -/
def yearText (year : Int) : String :=
  if 0 ≤ year ∧ year ≤ 9999 then padded 4 year.natAbs
  else (if year < 0 then "-" else "+") ++ padded 4 year.natAbs

/-- The text of the fraction of a second. -/
def fractionText (nanos : Nat) : String :=
  if nanos = 0 then ""
  else if nanos % 1000000 = 0 then "." ++ padded 3 (nanos / 1000000)
  else if nanos % 1000 = 0 then "." ++ padded 6 (nanos / 1000)
  else "." ++ padded 9 nanos

def text (t : Instant) : String :=
  let date := Date.ofDays (t.seconds / 86400)
  let (hour, minute, second) := t.clockFace
  yearText date.year ++ "-" ++ padded 2 date.month ++ "-" ++ padded 2 date.day ++
    "T" ++ padded 2 hour ++ ":" ++ padded 2 minute ++ ":" ++
    padded 2 second ++ fractionText t.fraction ++ "Z"

/-! ## Reading -/

/-- Whether a character is white space. -/
def isWhite (c : Char) : Bool :=
  let n := c.toNat
  (9 ≤ n && n ≤ 13) || n == 0x20 || n == 0x85 || n == 0xa0 || n == 0x1680 ||
    (0x2000 ≤ n && n ≤ 0x200a) || n == 0x2028 || n == 0x2029 || n == 0x202f || n == 0x205f ||
    n == 0x3000

def white : Parser Unit := fun s => .ok () (s.dropWhile isWhite)

/-- One digit, and at most `more` others. -/
def digits (more : Nat) : Parser (List Char) := do
  let first ← Parser.oneOf Char.isDigit
  fun s =>
    let others := (s.take more).takeWhile Char.isDigit
    .ok (first :: others) (s.drop others.length)

/-- A number of one or two digits within bounds, behind white space. -/
def part (low high : Nat) : Parser Nat := do
  white
  Parser.mapPartial (fun n => if low ≤ n ∧ n ≤ high then some n else none)
    (digitsValue <$> digits 1)

/-- A mark between white space. -/
def separator (c : Char) : Parser Unit := do
  white
  let _ ← Parser.char c

/-- A year: up to four digits, or a sign and any number of digits. -/
def year : Parser Int := do
  white
  (do let sign ← Parser.oneOf fun c => c == '-' || c == '+'
      let ds ← Parser.run1 Char.isDigit
      return if sign = '-' then -(digitsValue ds : Int) else digitsValue ds) <|>
  (do let ds ← digits 3
      return (digitsValue ds : Int))

/-- The fraction of a second in nanoseconds; digits behind the ninth do not
count. -/
def fraction : Parser Nat := do
  let point ← Parser.optional? (Parser.char '.')
  if point.isNone then return 0
  let ds ← Parser.run1 Char.isDigit
  let counted := ds.take 9
  return digitsValue counted * 10 ^ (9 - counted.length)

def twoDigits (first : Char) : Parser Nat := do
  let a ← Parser.oneOf fun c => '0' ≤ c && c ≤ first
  let b ← Parser.oneOf Char.isDigit
  return digitsValue [a, b]

/-- The offset from universal time in seconds. -/
def offset : Parser Int :=
  (do let _ ← Parser.oneOf fun c => c == 'Z' || c == 'z'
      return 0) <|>
  (do let _ ← Parser.oneOf fun c => c == 'U' || c == 'u'
      let _ ← Parser.oneOf fun c => c == 'T' || c == 't'
      let _ ← Parser.oneOf fun c => c == 'C' || c == 'c'
      return 0) <|>
  (do let sign ← Parser.oneOf fun c => c == '+' || c == '-' || c == '\u2212'
      let hours ← twoDigits '9'
      let _ ← Parser.run fun c => c == ':' || isWhite c
      let minutes ← twoDigits '5'
      let seconds : Int := (hours * 3600 + minutes * 60 : Nat)
      return if sign = '+' then seconds else -seconds)

/-- The years in which instants lie. -/
def isYear (y : Int) : Bool := -262143 ≤ y && y ≤ 262142

/-- The instant at a date, a time of day and an offset, if there is one. Second
`60` is a leap second. -/
def instant? (date : Date) (hour minute second nanos : Nat) (offset : Int) : Option Instant :=
  if date.isValid && isYear date.year && offset.natAbs < 86400 then
    let (second, nanos) :=
      if second = 60 then (59, nanos + Instant.nanosPerSecond) else (second, nanos)
    let seconds := date.days * 86400 + (hour * 3600 + minute * 60 + second : Nat) - offset
    if isYear (Date.ofDays (seconds / 86400)).year then some ⟨seconds, nanos⟩ else none
  else none

def reader : Parser Instant := do
  let year ← year
  separator '-'
  let month ← part 1 12
  separator '-'
  let day ← part 1 31
  let _ ← Parser.oneOf fun c => c == 'T' || c == 't' || c == ' '
  let hour ← part 0 23
  separator ':'
  let minute ← part 0 59
  separator ':'
  let second ← part 0 60
  let nanos ← fraction
  white
  let offset ← offset
  white
  match instant? ⟨year, month, day⟩ hour minute second nanos offset with
  | some t => return t
  | none => fun s => .fail false s []

/-- The instant that a text names. -/
def ofText? (text : String) : Option Instant :=
  match reader text.toList with
  | .ok t [] => some t
  | _ => none

end RuleWatch.Timestamp
