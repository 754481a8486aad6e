import Evalbox.Engine.Outcome
import Evalbox.Policy.Basic
import Evalbox.Text.Lines

/-!
# Reports of outcomes

How an outcome is shown, and the exit code that tells it to whoever called the program.
-/

/-!
## The screen

What the command line shows is made of blocks: panels with or without a title, and tables. `Block.lines`
writes them line by line.
-/

namespace Evalbox.Cli

/-- Characters that a screen does not show: those that ring, go back, or feed a line or a page without
ending it. -/
def isControl (c : Char) : Bool := [7, 8, 11, 12, 13].contains c.toNat

/-- A text as it is shown. -/
def visible (text : String) : String := String.ofList (text.toList.filter (!isControl ·))

/-- A piece of what is shown. -/
inductive Block where
  | panel (title : Option String) (body : String)
  | table (title : String) (header : List String) (rows : List (List String))
  deriving DecidableEq, Repr, Inhabited

/-- Whether a bracket, which stands in front of this text, opens a tag. -/
def opensTag : List Char → Bool
  | c :: rest =>
    (('a' ≤ c && c ≤ 'z') || c = '#' || c = '/' || c = '@') &&
      (rest.dropWhile fun d => d ≠ '[' && d ≠ ']').head? == some ']'
  | [] => false

/-- Drop a backslash in front of each bracket that opens no tag. `inRun` says that the character stands in a
run of backslashes which leads to a tag. -/
def dropEscapes : Bool → List Char → List Char
  | _, [] => []
  | inRun, '\\' :: rest =>
    let tag : Bool := inRun || match rest.dropWhile (· = '\\') with
      | '[' :: more => opensTag more
      | _ => false
    if !tag && rest.head? == some '[' then dropEscapes false rest
    else '\\' :: dropEscapes tag rest
  | _, c :: rest => c :: dropEscapes false rest

/-- A text as it is shown where brackets may hold tags: backslashes in front of other brackets get lost, and
a single one at the end is doubled. -/
def literal (text : String) : String :=
  let cs := text.toList
  let lone : Bool := match cs.reverse with
    | '\\' :: '\\' :: _ => false
    | '\\' :: _ => true
    | _ => false
  String.ofList (dropEscapes false (if lone then cs ++ ['\\'] else cs))

/-- The lines of a text. -/
def textLines (text : String) : List String := (visible text).splitOn "\n"

/-- The lines of a row, whose cells may have several each. -/
def rowLines (cells : List String) : List String :=
  let columns := cells.map textLines
  let height := (columns.map (·.length)).foldl max 0
  (List.range height).map fun i => " ".intercalate (columns.map fun column => (column[i]?).getD "")

/-- The lines of a block. -/
def Block.lines : Block → List String
  | panel title body => title.toList ++ textLines body
  | table title header rows => title :: " ".intercalate header :: rows.flatMap rowLines

end Evalbox.Cli

namespace Evalbox.Cli

/-- What a program shows and answers. -/
structure Reply where
  blocks : List Block
  code : Nat
  deriving DecidableEq, Repr, Inhabited

namespace ExitCode

def ok : Nat := 0
def snippetFailed : Nat := 1
def internal : Nat := 2
def timeout : Nat := 124

end ExitCode

/-- Diagnostics as a table, if there are any. -/
def diagnosticBlocks (r : Report) : List Block :=
  if r.isEmpty then []
  else [.table "Diagnostics" ["Severity", "Line", "Message"] (r.flatMap fun (s, ds) =>
    ds.map fun d => [s.name, (d.position.map fun p => toString p.line).getD "-", d.text])]

/-- A fault with its class. -/
def faultText (f : Fault) (place : String) : String := f.kind ++ place ++ ": " ++ f.text

/-- What is said of a failure. -/
def failureText : Option Failure → String
  | none => "Snippet raised an unknown error"
  | some f => faultText f.fault ((f.line.map fun n => " at line " ++ toString n).getD "")

/-- What a snippet wrote, if anything. -/
def outputBlocks (output : String) : List Block :=
  if output = "" then []
  else [.panel (some "Output") (String.ofList (output.toList.reverse.dropWhile (· = '\n')).reverse)]

/-- Show an outcome. -/
def reportOutcome (o : Outcome) : Reply :=
  match o with
  | .success ds v output =>
    ⟨diagnosticBlocks ds ++ outputBlocks output ++ [.panel (some "Result") v.text], ExitCode.ok⟩
  | .compileFailure ds => ⟨diagnosticBlocks ds ++ [.panel none "Compilation failed"], ExitCode.snippetFailed⟩
  | .runtimeFailure ds f =>
    ⟨diagnosticBlocks ds ++ [.panel (some "Runtime failure") (failureText f)], ExitCode.snippetFailed⟩
  | .timeout => ⟨[.panel none "Evaluation timed out"], ExitCode.timeout⟩
  | .internalFailure f => ⟨[.panel (some "Internal failure") (faultText f "")], ExitCode.internal⟩

/-- The reply to something that is no outcome. -/
def Reply.unknown : Reply := ⟨[], ExitCode.internal⟩

/-- A policy as it is shown. -/
def policyText (p : Policy) : String :=
  let names (xs : List String) : Datum := .list (xs.map .text)
  Datum.shown (.dict [(.text "mode", .text p.mode.name), (.text "allowed_imports", names p.allowedImports),
    (.text "blocked_imports", names p.blockedImports), (.text "allowed_builtins", names p.allowedBuiltins),
    (.text "blocked_builtins", names p.blockedBuiltins), (.text "blocked_events", names p.blockedEvents)])

end Evalbox.Cli
