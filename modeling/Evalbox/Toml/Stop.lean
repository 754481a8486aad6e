import Evalbox.Datum.Basic
import Evalbox.Failure

/-!
# Where a document stops

Reading a document ends at the first thing that is wrong. A `Stop` says what it is and how much of the
text was left; `Stop.message` turns the rest into a line and a column, both from 1.
-/

namespace Evalbox.Toml

/-- A dotted key. -/
abbrev Key := List String

/-- What is wrong with a document. -/
inductive Cause where
  | statement
  | statementEnd
  | expected (text : String)
  | badCharacter (c : Char)
  | tableTwice (key : Key)
  | tableEnd
  | tablesEnd
  | immutable (key : Key)
  | redefined (key : Key)
  | overwritten
  | equalSign
  | keyStart
  | arrayEnd
  | inlineEnd
  | duplicate (key : String)
  | escape
  | hex
  | scalar
  | unterminated
  | illegal (c : Char)
  | moment
  | value
  /-- an integer with too many digits to be read -/
  | tooLong (digits : Nat)
  deriving DecidableEq, Repr, Inhabited

namespace Cause

def keyText (k : Key) : String := (Datum.tuple (k.map .text)).shown

def text : Cause → String
  | statement => "Invalid statement"
  | statementEnd => "Expected newline or end of document after a statement"
  | expected t => "Expected " ++ Text.quote t
  | badCharacter c => "Found invalid character " ++ Text.quote (String.singleton c)
  | tableTwice k => "Cannot declare " ++ keyText k ++ " twice"
  | tableEnd => "Expected ']' at the end of a table declaration"
  | tablesEnd => "Expected ']]' at the end of an array declaration"
  | immutable k => "Cannot mutate immutable namespace " ++ keyText k
  | redefined k => "Cannot redefine namespace " ++ keyText k
  | overwritten => "Cannot overwrite a value"
  | equalSign => "Expected '=' after a key in a key/value pair"
  | keyStart => "Invalid initial character for a key part"
  | arrayEnd => "Unclosed array"
  | inlineEnd => "Unclosed inline table"
  | duplicate k => "Duplicate inline table key " ++ Text.quote k
  | escape => "Unescaped '\\' in a string"
  | hex => "Invalid hex value"
  | scalar => "Escaped character is not a Unicode scalar value"
  | unterminated => "Unterminated string"
  | illegal c => "Illegal character " ++ Text.quote (String.singleton c)
  | moment => "Invalid date or datetime"
  | value => "Invalid value"
  | tooLong n => "Exceeds the limit (4300 digits) for integer string conversion: value has " ++
      toString n ++ " digits; use sys.set_int_max_str_digits() to increase the limit"

end Cause

/-- What is wrong, and how many characters were left. -/
structure Stop where
  cause : Cause
  left : Nat
  deriving DecidableEq, Repr, Inhabited

/-- Readers take characters from the front of a text. -/
abbrev Reader (α : Type) := List Char → Except Stop (α × List Char)

/-- Stop at the front of `rest`. -/
def stop {α : Type} (rest : List Char) (cause : Cause) : Except Stop α := .error ⟨cause, rest.length⟩

namespace Stop

/-- The place of a stop in its document. -/
def place (s : Stop) (document : List Char) : String :=
  if s.left = 0 then "end of document"
  else
    let front := document.take (document.length - s.left)
    let column := (front.reverse.takeWhile (· ≠ '\n')).length + 1
    "line " ++ toString (front.count '\n' + 1) ++ ", column " ++ toString column

def fault (s : Stop) (document : List Char) : Fault :=
  match s.cause with
  | .tooLong _ => .value s.cause.text
  | c => ⟨"TOMLDecodeError", c.text ++ " (at " ++ s.place document ++ ")"⟩

end Stop

end Evalbox.Toml
