/-!
# Lines of a text

Three readings of "line" meet in this library, and they disagree on purpose.

* `newlineStarts` counts a line feed only; positions of diagnostics are measured in these lines.
* `sourceLines` ends a line at a line feed, a carriage return, or the pair of both; the snippet
  language numbers its lines so.
* `displayLines` also ends a line at the vertical tab, the form feed, the three separators
  `\x1c` to `\x1e`, next line `\x85`, and the two Unicode separators; text is cut and indented by
  these lines.

Both cutting functions keep the terminators, so their lines concatenate to the text.
-/

namespace Evalbox.Text

/-- Offsets that follow a line feed, where `base` is the offset of the first character. -/
def startsAfter (base : Nat) : List Char → List Nat
  | [] => []
  | c :: rest => if c = '\n' then (base + 1) :: startsAfter (base + 1) rest
                 else startsAfter (base + 1) rest

/-- The offset at which each line begins, counting line feeds only. -/
def newlineStarts (text : List Char) : List Nat := 0 :: startsAfter 0 text

/-- Line ends of the snippet language other than the line feed pair. -/
def isSourceBreak (c : Char) : Bool := c = '\n' || c = '\r'

/-- Line ends by which text is displayed and indented. -/
def isDisplayBreak (c : Char) : Bool :=
  c = '\n' || c = '\r' || c = '\x0b' || c = '\x0c' || c = '\x1c' || c = '\x1d' || c = '\x1e' ||
  c = '\x85' || c = '\u2028' || c = '\u2029'

/-- Cut after each character that `isBreak` accepts, a carriage return together with a line feed
that follows it. `line` holds the current line so far, last character first. -/
def cutLines (isBreak : Char → Bool) : List Char → List Char → List (List Char)
  | line, [] => if line.isEmpty then [] else [line.reverse]
  | line, '\r' :: '\n' :: rest =>
    if isBreak '\r' then ('\n' :: '\r' :: line).reverse :: cutLines isBreak [] rest
    else cutLines isBreak ('\n' :: '\r' :: line) rest
  | line, c :: rest =>
    if isBreak c then (c :: line).reverse :: cutLines isBreak [] rest
    else cutLines isBreak (c :: line) rest

/-- The lines of the snippet language, with their terminators. -/
def sourceLines (text : List Char) : List (List Char) := cutLines isSourceBreak [] text

/-- The lines of displayed text, with their terminators. -/
def displayLines (text : List Char) : List (List Char) := cutLines isDisplayBreak [] text

/-- A line without its terminator, for the breaks that `isBreak` accepts. -/
def dropTerminator (isBreak : Char → Bool) (line : List Char) : List Char :=
  match line.reverse with
  | '\n' :: '\r' :: before => if isBreak '\r' then before.reverse else line
  | c :: before => if isBreak c then before.reverse else line
  | [] => []

end Evalbox.Text
