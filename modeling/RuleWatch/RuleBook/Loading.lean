import RuleWatch.Event
import RuleWatch.RuleBook.Basic
import RuleWatch.RuleText.Mistake
/-!
  Loading rule books from rule texts and files. A book is loaded whole or not at
  all: a text that cannot be read, then the first rule that is refused, then the
  first name that is repeated stops it. What is told on the way is told in any
  case.
-/

namespace RuleWatch

/-- Why the content of a file is not available. -/
inductive FileError where
  | absent
  /-- The bytes are not the UTF-8 form of a text. -/
  | notText
deriving DecidableEq

/-- The message for a file that is not available. -/
def FileError.message : FileError → String
  | absent => "No such file or directory (os error 2)"
  | notText => "stream did not contain valid UTF-8"

/-- Why a book cannot be loaded. -/
inductive LoadError where
  | unavailable (e : FileError)
  | unreadable (m : RuleText.Mistake)
  | refused (e : RuleError)
deriving DecidableEq

/-- The message for a book that cannot be loaded. -/
def LoadError.message : LoadError → String
  | unavailable e => e.message
  | unreadable m => m.message
  | refused e => e.message

namespace Draft

variable {ε : Type}

/-- Builds drafts in order, up to the first that is refused, and tells about
those before it. The draft at place `i` gets the identity `identity i`. -/
def buildAll (identity : Nat → RuleId) (i : Nat) :
    List (Draft ε) → List Event × Except RuleError (List (Rule ε))
  | [] => ([], .ok [])
  | d :: rest =>
    match d.build (identity i) with
    | .error e => ([], .error e)
    | .ok r =>
      let (events, rules) := buildAll identity (i + 1) rest
      (r.warnings ++ events, rules.map (r :: ·))

end Draft

namespace RuleBook

/-- The book that a rule text describes, and what is told about it. -/
def load (identity : Nat → RuleId) (text : String) : List Event × Except LoadError RuleBook :=
  match RuleText.parseRules text with
  | .error m => ([], .error (.unreadable m))
  | .ok drafts =>
    match Draft.buildAll identity 0 drafts with
    | (events, .error e) => (events, .error (.refused e))
    | (events, .ok rules) =>
      match ofRules rules with
      | .error e => (events, .error (.refused e))
      | .ok book => (events ++ [.loaded book.size], .ok book)

/-- The book that a file describes, given its bytes if it exists. -/
def loadFile (identity : Nat → RuleId) (content : Option ByteArray) :
    List Event × Except LoadError RuleBook :=
  match content with
  | none => ([], .error (.unavailable .absent))
  | some bytes =>
    match String.fromUTF8? bytes with
    | none => ([], .error (.unavailable .notText))
    | some text => load identity text

end RuleBook

end RuleWatch
