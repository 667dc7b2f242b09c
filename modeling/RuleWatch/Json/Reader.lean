import RuleWatch.Json.Basic
import RuleWatch.Text.Parser
/-!
  Reading JSON texts. Blanks may stand around every part; nothing else may stand
  behind the value.
-/

namespace RuleWatch.Json

/-! ## Strings -/

/-- A part of a string: a character, or a code unit given by its number. -/
inductive Piece where
  | char (c : Char)
  | unit (n : Nat)
deriving DecidableEq

/-- The character that a backslash and a letter stand for. -/
def unescape? (c : Char) : Option Char :=
  if c = '"' then some '"'
  else if c = '\\' then some '\\'
  else if c = '/' then some '/'
  else if c = 'b' then some '\x08'
  else if c = 'f' then some '\x0c'
  else if c = 'n' then some '\n'
  else if c = 'r' then some '\r'
  else if c = 't' then some '\t'
  else none

/-- The number that four hexadecimal digits stand for. -/
def unit? (a b c d : Char) : Option Nat := hexDigitsValue? [a, b, c, d]

/-- The parts of a string up to its closing quote, and the text behind that. -/
def pieces? : List Char → Option (List Piece × List Char)
  | [] => none
  | '"' :: rest => some ([], rest)
  | '\\' :: 'u' :: a :: b :: c :: d :: rest =>
    match unit? a b c d, pieces? rest with
    | some n, some (pieces, after) => some (.unit n :: pieces, after)
    | _, _ => none
  | '\\' :: c :: rest =>
    match unescape? c, pieces? rest with
    | some x, some (pieces, after) => some (.char x :: pieces, after)
    | _, _ => none
  | c :: rest =>
    if c.toNat < 0x20 then none
    else (pieces? rest).map fun (pieces, after) => (.char c :: pieces, after)

/-- The characters that the parts make up. The first half of a surrogate pair
must be followed by a second half, and no second half stands alone. -/
def joinPieces? : List Piece → Option (List Char)
  | [] => some []
  | .char c :: rest => (joinPieces? rest).map (c :: ·)
  | .unit n :: rest =>
    if n < 0xd800 ∨ 0xdfff < n then (joinPieces? rest).map (Char.ofNat n :: ·)
    else if n < 0xdc00 then
      match rest with
      | .unit m :: rest =>
        if 0xdc00 ≤ m ∧ m ≤ 0xdfff then
          (joinPieces? rest).map (Char.ofNat (0x10000 + (n - 0xd800) * 0x400 + (m - 0xdc00)) :: ·)
        else none
      | _ => none
    else none

def readString : Parser JsonString := do
  let _ ← Parser.char '"'
  fun s => match pieces? s with
    | some (pieces, after) => .ok ((joinPieces? pieces).map String.ofList) after
    | none => .fail true [] []

/-! ## Numbers -/

/-- A zero alone, or digits that do not begin with a zero. -/
def readWhole : Parser (List Char) :=
  (do let zero ← Parser.char '0'
      return [zero]) <|>
  Parser.run1 Char.isDigit

def readExponent : Parser Int := do
  let _ ← Parser.oneOf fun c => c == 'e' || c == 'E'
  let sign ← Parser.optional? (Parser.oneOf fun c => c == '+' || c == '-')
  let digits ← Parser.run1 Char.isDigit
  return if sign = some '-' then -(digitsValue digits : Int) else digitsValue digits

def readNumeral : Parser Numeral := do
  let sign ← Parser.optional? (Parser.char '-')
  let whole ← readWhole
  let places ← Parser.optional? do
    let _ ← Parser.char '.'
    Parser.run1 Char.isDigit
  let exponent ← Parser.optional? readExponent
  return ⟨sign.isSome, whole, places.getD [], exponent⟩

/-! ## Values -/

def isBlank (c : Char) : Bool := c == ' ' || c == '\n' || c == '\t' || c == '\r'

/-- Blanks, possibly none. -/
def blanks : Parser Unit := fun s => .ok () (s.dropWhile isBlank)

/-- A character behind blanks. -/
def mark (c : Char) : Parser Unit := do
  blanks
  let _ ← Parser.char c

/-- Items with commas between them, possibly none, up to a closing mark. -/
def listUpTo {α : Type} (item : Parser α) (close : Char) : Parser (List α) := do
  let items ← Parser.optional? (Parser.separated item (mark ','))
  mark close
  return items.getD []

/-- A member of an object. -/
def readMember (value : Parser Json) : Parser (JsonString × Json) := do
  blanks
  let name ← readString
  mark ':'
  let v ← value
  return (name, v)

/-- A value, given how to read the values within it. -/
def valueStep (value : Parser Json) : Parser Json := do
  blanks
  (do Parser.word "null".toList; return .null) <|>
  (do Parser.word "true".toList; return .bool true) <|>
  (do Parser.word "false".toList; return .bool false) <|>
  (Json.number <$> readNumeral) <|>
  (Json.string <$> readString) <|>
  (do let _ ← Parser.char '['
      let items ← listUpTo value ']'
      return .array items) <|>
  (do let _ ← Parser.char '\x7b'
      let members ← listUpTo (readMember value) '\x7d'
      return .object members)

def readValue : Parser Json := Parser.recursive valueStep

/-- The value that a text holds. -/
def ofText? (text : String) : Option Json :=
  match (do let v ← readValue; blanks; return v : Parser Json) text.toList with
  | .ok v [] => some v
  | _ => none

end RuleWatch.Json
