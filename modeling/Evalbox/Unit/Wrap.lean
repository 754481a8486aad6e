import Evalbox.Lang.Parse
import Evalbox.Text.Blank
import Evalbox.Text.Lines
import Evalbox.Text.Utf8

/-!
# Wrapped units

A snippet is compiled as a unit: the prelude as it is, then a class of the unit's own name whose
`__call__` method holds the returning body, indented by eight blanks. `snippetOffset` is the number
of lines in front of the body, so that lines of the unit can be mapped to lines of the snippet.
-/

/-!
## The returning body of a snippet

A snippet runs as the body of a function and answers the value of its last statement, if that is an
expression. `returningBody` makes it a return statement by editing the text: the word goes in front
of the expression, where the syntax tree says that it begins.

The tree counts lines by the rules of the language and columns in bytes; the text is cut by display
lines. Where the two disagree, the cut may fall inside a character, and the edit fails.
-/

namespace Evalbox

open Lang

/-- Where the last statement begins, if it is an expression whose value is returned. A `yield` keeps
its place: it makes the function a generator. -/
def returnPlace? (body : List Stmt) : Option Place :=
  match body.getLast? with
  | some (.expr _ (.yield ..)) | some (.expr _ (.yieldFrom ..)) => none
  | some (.expr span _) => some span.start
  | _ => none

/-- Insert a text into a row behind its first `byte` bytes. -/
def insertAtByte (row : List Char) (byte : Nat) (text : List Char) : Except Text.DecodeFault (List Char) :=
  match Text.decode ((Text.encode row).take byte) with
  | .error f => .error f
  | .ok front => .ok (front ++ text ++ row.drop front.length)

/-- The code with its trailing expression returned. Code that does not parse, or that does not end
with such an expression, is left as it is. -/
def returningBody (code : List Char) : Except Text.DecodeFault (List Char) :=
  match parse code false with
  | (.error _, _) => .ok code
  | (.ok body, _) =>
    match returnPlace? body with
    | none => .ok code
    | some place =>
      let rows := Text.displayLines code
      match rows[place.line - 1]? with
      | none => .ok code
      | some row =>
        match insertAtByte row place.byte "return ".toList with
        | .error f => .error f
        | .ok edited => .ok (rows.set (place.line - 1) edited).flatten

end Evalbox

namespace Evalbox

/-- A wrapped source, ready to be compiled. -/
structure SnippetUnit where
  name : String
  filename : String
  source : List Char
  snippetOffset : Int
  deriving DecidableEq, Repr, Inhabited

namespace SnippetUnit

/-- The snippet line of a unit line; none for the prelude and the header. -/
def snippetLine (u : SnippetUnit) (line : Int) : Option Int :=
  let n := line - u.snippetOffset
  if n ≥ 1 then some n else none

end SnippetUnit

/-- The name of the `n`-th unit. -/
def unitName (n : Nat) : String := "_SnippetUnit_" ++ toString n

/-- The filename that tracebacks show for a unit. -/
def unitFilename (name : String) : String := "<snippet-eval:" ++ name ++ ">"

/-- The indentation of a body. -/
def bodyIndent : List Char := List.replicate 8 ' '

/-- The prelude, closed by a line feed if it is not empty. -/
def unitHead (prelude : List Char) : List Char :=
  if prelude.isEmpty then []
  else if prelude.getLast? = some '\n' then prelude
  else prelude ++ ['\n']

/-- The two lines between the prelude and the body. -/
def unitHeader (name : String) : List Char :=
  "class ".toList ++ name.toList ++ ":\n    def __call__(self):\n".toList

/-- Put `margin` in front of every display line. -/
def indent (margin text : List Char) : List Char :=
  (Text.displayLines text).flatMap (margin ++ ·)

/-- What the method holds: the returning body, or `pass` for a blank snippet. -/
def unitBody (code : List Char) : Except Text.DecodeFault (List Char) :=
  match returningBody code with
  | .error f => .error f
  | .ok body => .ok (if (Text.trim body).isEmpty then "pass".toList else body)

/-- Wrap a snippet into a unit of the given name. -/
def wrap (prelude code : List Char) (name : String) : Except Text.DecodeFault SnippetUnit :=
  match unitBody code with
  | .error f => .error f
  | .ok body =>
    let head := unitHead prelude
    let source := head ++ unitHeader name ++ indent bodyIndent body
    .ok ⟨name, unitFilename name,
      if source.getLast? = some '\n' then source else source ++ ['\n'],
      (head.count '\n' + 2 : Nat)⟩

end Evalbox
