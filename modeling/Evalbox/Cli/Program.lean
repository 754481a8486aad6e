import Evalbox.Cli.Command
import Evalbox.Cli.Report
import Evalbox.Engine.Snippets

/-!
# The program

`Program.run` is the whole program but for its input and output: it reads the command line, makes the
configuration, reads the snippet, evaluates it and reports the outcome. What stops it on the way is reported
too, but for faults that it does not expect; these are its own answer then.
-/

namespace Evalbox.Cli

/-- How a run of the program ends: with what it shows and answers, or early, after a message about its use
or for help. -/
inductive Finish where
  | replied (reply : Reply)
  | stopped (stop : Stop)
  deriving Repr

/-- Whether a fault is of one of these classes, or of one below them. -/
def isOneOf (f : Fault) (classes : List String) : Bool := classes.any (isBelow f.kind)

/-- Faults that stand for an invalid configuration. -/
def spoilsConfig (f : Fault) : Bool := isOneOf f ["OSError", "ValueError"]

/-- Faults that stand for a snippet that cannot be read. -/
def spoilsSnippet (f : Fault) : Bool := isOneOf f ["OSError"]

/-- Read a source: a file, or the standard input if a dash names it. -/
def readSource (files : FileTree) (stdin : String) (name : Datum) : Except Fault String :=
  match name with
  | .text s => if s = "-" then .ok stdin else files.readText (Path.tidy s)
  | d => .error (.type ("expected str, bytes or os.PathLike object, not " ++ d.typeName))

/-- The snippet and its prelude. The standard input can be read only once. -/
def readSources (files : FileTree) (stdin : String) (r : RunOptions) : Except Fault (String × String) := do
  let code ← readSource files stdin (.text r.snippet)
  match r.prelude with
  | none => return (code, "")
  | some p => return (code, ← readSource files (if r.snippet = "-" then "" else stdin) p)

/-- Evaluate a snippet on its own. -/
def evaluateOnce (files : FileTree) (c : EngineConfig) (prelude code : String) : Outcome :=
  let e : Evaluator Unit ThreadId Policy Outside Program := .ofConfig snippetToolchain () files c
  (e.evaluate prelude.toList code.toList none).1.outcome

/-- Carry out a command with its configuration. `evaluate` evaluates a snippet behind its prelude. -/
def carryOut (evaluate : EngineConfig → String → String → Outcome) (files : FileTree) (stdin : String)
    (config : EngineConfig) (a : Action) : Except Fault Reply :=
  match a with
  | .policy => .ok ⟨[.panel (some "Security Policy") (policyText config.policy)], ExitCode.ok⟩
  | .run r =>
    match readSources files stdin r with
    | .error f =>
      if spoilsSnippet f then
        .ok ⟨[.panel none (literal ("Cannot read snippet: " ++ f.text))], ExitCode.internal⟩
      else .error f
    | .ok (code, prelude) => .ok (reportOutcome (evaluate config prelude code))

/-- Run the program with a way to evaluate snippets. -/
def runWith (evaluate : EngineConfig → String → String → Outcome) (files : FileTree) (stdin : String)
    (words : List String) : Except Fault Finish :=
  match Command.parse words with
  | .error stop => .ok (.stopped stop)
  | .ok c =>
    match c.config files with
    | .error f =>
      if spoilsConfig f then
        .ok (.replied ⟨[.panel none (literal ("Invalid configuration: " ++ f.text))], ExitCode.internal⟩)
      else .error f
    | .ok config => (carryOut evaluate files stdin config c.action).map .replied

/-- Run the program. -/
def run (files : FileTree) (stdin : String) (words : List String) : Except Fault Finish :=
  runWith (evaluateOnce files) files stdin words

namespace Stop

/-- What is shown of a command line that ended early, in front of the help. -/
def blocks : Stop → List Block
  | help => []
  | usage message => [.panel none (literal ("Error: " ++ message))]

/-- The exit code of a command line that ended early. -/
def code : Stop → Nat
  | help => ExitCode.ok
  | usage _ => ExitCode.internal

end Stop

end Evalbox.Cli
