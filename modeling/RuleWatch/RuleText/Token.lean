import RuleWatch.Text.Parser
import RuleWatch.Value.Comparison
/-!
  The smallest parts of a rule text: blanks and comments, names, keywords,
  literals and comparison operators.
-/

namespace RuleWatch.RuleText

/-! ## Blanks and comments -/

def isBlank (c : Char) : Bool :=
  c == ' ' || c == '\t' || c == '\n' || c == '\x0c' || c == '\r'

/-- The text behind blanks and comments. A comment runs from a number sign up
to a line break or the end of the text, the line break being a line feed with or
without a carriage return before it. If a carriage return stands alone behind a
number sign, that sign begins no comment, and the text is left from there on.
The first argument is that text while inside a comment. -/
def skipTrivia : Option (List Char) → List Char → List Char
  | _, [] => []
  | none, c :: rest =>
    if isBlank c then skipTrivia none rest
    else if c = '#' then skipTrivia (some (c :: rest)) rest
    else c :: rest
  | some _, '\n' :: rest => skipTrivia none rest
  | some _, '\r' :: '\n' :: rest => skipTrivia none rest
  | some start, '\r' :: _ => start
  | some start, _ :: rest => skipTrivia (some start) rest

/-- Blanks and comments, possibly none. -/
def trivia : Parser Unit := fun s => .ok () (skipTrivia none s)

/-! ## Names and keywords -/

/-- Whether a character may begin a name. -/
def isNameStart (c : Char) : Bool := c.isAlpha || c == '_'

/-- Whether a character may stand in a name. -/
def isNameChar (c : Char) : Bool := c.isAlphanum || c == '_' || c == '.'

/-- A name: letters, digits, underscores and points, the longest run. -/
def name : Parser String := do
  let first ← Parser.oneOf isNameStart
  let others ← Parser.run isNameChar
  return String.ofList (first :: others)

/-- A keyword, not as the beginning of a longer name. -/
def keyword (w : String) : Parser Unit := do
  Parser.word w.toList
  Parser.noneOf isNameChar

/-! ## Literals -/

/-- What a backslash and a character stand for. -/
def unescape (c : Char) : List Char :=
  if c = '"' then ['"']
  else if c = '\\' then ['\\']
  else if c = 'n' then ['\n']
  else if c = 't' then ['\t']
  else ['\\', c]

/-- The content of a string up to its closing quote, and the text behind that;
none if the text ends before. -/
def stringBody? : List Char → Option (List Char × List Char)
  | [] => none
  | '"' :: rest => some ([], rest)
  | '\\' :: [] => none
  | '\\' :: c :: rest => (stringBody? rest).map fun (body, after) => (unescape c ++ body, after)
  | c :: rest => (stringBody? rest).map fun (body, after) => (c :: body, after)

/-- A string in double quotes. -/
def string : Parser String := do
  let _ ← Parser.char '"'
  fun s => match stringBody? s with
    | some (body, after) => .ok (String.ofList body) after
    | none => .fail true [] []

/-- A double with digits on both sides of its point. -/
def double : Parser Binary64 := do
  let sign ← Parser.optional? (Parser.char '-')
  let whole ← Parser.run1 Char.isDigit
  let _ ← Parser.char '.'
  let places ← Parser.run1 Char.isDigit
  return Numeral.nearest ⟨sign.isSome, whole, places, none⟩

/-- Digits without a leading zero, or a zero alone. -/
def naturalDigits (sign : Parser Bool) : Parser (Bool × List Char) :=
  (do let negative ← sign
      let first ← Parser.oneOf (fun c => c.isDigit && c != '0')
      let others ← Parser.run Char.isDigit
      return (negative, first :: others)) <|>
  (do let zero ← Parser.char '0'
      return (false, [zero]))

/-- An integer of 64 bits, with an optional sign unless it is a zero alone. -/
def int : Parser Int64 :=
  Parser.mapPartial
    (fun (negative, digits) =>
      let n : Int := if negative then -(digitsValue digits : Int) else digitsValue digits
      if -2 ^ 63 ≤ n && n < 2 ^ 63 then some (Int64.ofInt n) else none)
    (naturalDigits do
      let sign ← Parser.optional? (Parser.oneOf fun c => c == '+' || c == '-')
      return sign == some '-')

/-- A count below `2 ^ 64`. -/
def count : Parser Nat :=
  Parser.mapPartial
    (fun (_, digits) => let n := digitsValue digits; if n < 2 ^ 64 then some n else none)
    (naturalDigits (pure false))

def value : Parser Value := do
  trivia
  Parser.wanting "value" <|
    (Value.string <$> string) <|>
    (do keyword "true"; return Value.bool true) <|>
    (do keyword "false"; return Value.bool false) <|>
    (Value.float <$> double) <|>
    (Value.int <$> int)

/-! ## Comparison operators -/

def operator : Parser Comparison :=
  (do Parser.word ">=".toList; return .atLeast) <|>
  (do Parser.word ">".toList; return .greater) <|>
  (do Parser.word "<=".toList; return .atMost) <|>
  (do Parser.word "<".toList; return .less) <|>
  (do Parser.word "==".toList; return .equal) <|>
  (do Parser.word "!=".toList; return .different)

end RuleWatch.RuleText
