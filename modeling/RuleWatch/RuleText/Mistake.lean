import RuleWatch.RuleText.RuleFile
/-!
  Reading a whole text, and the message for a text that cannot be read: where
  reading gave up, a mark under that place, and what was wanted there.
-/

namespace RuleWatch.RuleText

/-- Where reading gave up, and what was wanted there, the innermost wish first. -/
structure Mistake where
  /-- The text before the place. -/
  read : List Char
  /-- The text from the place on. -/
  rest : List Char
  wanted : List String
deriving DecidableEq

/-- The number of bytes that characters take. -/
def byteSize (s : List Char) : Nat := s.foldr (fun c n => c.utf8Size + n) 0

/-- Reads a whole text. Text left over is a mistake where it begins. -/
def parse {α : Type} (p : Parser α) (text : String) : Except Mistake α :=
  let s := text.toList
  let mistake (rest : List Char) (wanted : List String) : Mistake :=
    ⟨s.take (s.length - rest.length), rest, wanted⟩
  match p s with
  | .ok a [] => .ok a
  | .ok _ rest => .error (mistake rest [])
  | .fail _ rest wanted => .error (mistake rest wanted)

/-- The part of a text behind its last line feed. -/
def lastLine (s : List Char) : List Char :=
  (s.reverse.takeWhile (· != '\n')).reverse

namespace Mistake

/-- The place in bytes from the start. -/
def offset (m : Mistake) : Nat := byteSize m.read

/-- The text before the last character looked at: the one at the place or, at
the end of the text, the one before it. -/
def before (m : Mistake) : List Char :=
  if m.rest.isEmpty then m.read.dropLast else m.read

/-- The line of the place, from one. -/
def line (m : Mistake) : Nat := m.before.count '\n' + 1

/-- The column of the place, from one: characters are counted, but bytes where a
character of more than one byte stands at the place. -/
def column (m : Mistake) : Nat :=
  let start := lastLine m.before
  match m.rest with
  | [] => start.length + 2
  | c :: _ => (if c.utf8Size = 1 then start.length else byteSize start) + 1

/-- The text of the line of the place. -/
def lineText (m : Mistake) : List Char :=
  lastLine m.before ++ ((m.read ++ m.rest).drop m.before.length).takeWhile (· != '\n')

/-- The wishes, in one line. -/
def wish (m : Mistake) : String :=
  if m.wanted.isEmpty then "" else "expected " ++ ", ".intercalate m.wanted

/-- A row of blanks. -/
def blanks (n : Nat) : String := String.ofList (List.replicate n ' ')

/-- The text with a mark: of a text of one line the whole text, of a longer one
the line of the place, with its number. -/
def excerpt (m : Mistake) : String :=
  if '\n' ∈ m.read ++ m.rest then
    let number := m.line.repr
    let gutter := blanks number.length ++ " |"
    "parse error at line " ++ number ++ ", column " ++ m.column.repr ++ "\n" ++
      gutter ++ "\n" ++
      number ++ " | " ++ String.ofList m.lineText ++ "\n" ++
      gutter ++ " " ++ blanks (m.column - 1) ++ "^\n"
  else String.ofList (m.read ++ m.rest) ++ "\n" ++ blanks m.offset ++ "^\n"

/-- The message. -/
def message (m : Mistake) : String := "parse error: " ++ m.excerpt ++ m.wish

end Mistake

/-- The rules of a rule file. -/
def parseRules (text : String) : Except Mistake (List (Draft Condition)) := parse rules text

/-- A condition that stands alone. -/
def parseCondition (text : String) : Except Mistake Condition := parse loneCondition text

end RuleWatch.RuleText
