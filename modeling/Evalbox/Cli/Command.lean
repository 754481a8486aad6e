import Evalbox.Cli.Options
import Evalbox.Config.Basic

/-!
# Commands

`Command.parse` reads the words behind the program's name: an option that names a configuration file, and
then either `run` with a snippet and its options, or `policy`. `Command.config` makes the configuration that
the command asks for, in which options come before the file.
-/

namespace Evalbox.Cli

/-- What `run` is given. Values are kept as they were read; a file that is named by an empty text is none. -/
structure RunOptions where
  snippet : String
  prelude : Option Datum
  timeout : Option Datum
  classpath : List Datum
  flags : List Datum
  noSecurity : Bool
  policyFile : Option String
  deriving Inhabited

/-- What there is to do. -/
inductive Action where
  | run (options : RunOptions)
  | policy
  deriving Inhabited

/-- A command: what to do, and the file with the configuration. -/
structure Command where
  configFile : Option String
  action : Action
  deriving Inhabited

/-- The options in front of a command's name. -/
inductive LeadingOption where
  | help
  | config

/-- The options of `run`. -/
inductive RunOption where
  | help
  | prelude
  | timeout
  | classpath
  | flag
  | noSecurity
  | policyFile

def leadingOptions : List (OptionSpec LeadingOption) :=
  [⟨.help, "--help", some "-h", false⟩, ⟨.config, "--config", none, true⟩]

def runOptions : List (OptionSpec RunOption) :=
  [⟨.help, "--help", some "-h", false⟩, ⟨.prelude, "--prelude", none, true⟩,
   ⟨.timeout, "--timeout", none, true⟩, ⟨.classpath, "--classpath", none, true⟩,
   ⟨.flag, "--flag", none, true⟩, ⟨.noSecurity, "--no-security", none, false⟩,
   ⟨.policyFile, "--policy-file", none, true⟩]

def policyOptions : List (OptionSpec Unit) := [⟨(), "--help", some "-h", false⟩]

/-- The names of commands. -/
def commandNames : List String := ["run", "policy"]

/-- What is said of operands that are missing. -/
def missing (operand : String) : Stop := .usage ("the following arguments are required: " ++ operand)

/-- A file that an option names. -/
def fileOf (value : Option Datum) : Option String :=
  match value with
  | some (.text s) => if s = "" then none else some s
  | _ => none

/-- The value of an option as a number. -/
def numberOf {α : Type} (o : OptionSpec α) (value : Option Datum) : Except Stop (Option Datum) :=
  match value with
  | some (.text s) =>
    match Number.readFloat? s.toList with
    | some x => .ok (some (.float x))
    | none => .error (o.fault ("invalid float value: " ++ Text.quote s))
  | other => .ok other

namespace RunOptions

/-- Take an option or the snippet. -/
def take (s : Option String × RunOptions) : Given RunOption → Except Stop (Option String × RunOptions)
  | .operand words => .ok (words.head?, s.2)
  | .option o value => do
    let r := s.2
    match o.key with
    | .help => .error .help
    | .prelude => return (s.1, { r with prelude := value })
    | .timeout => return (s.1, { r with timeout := ← numberOf o value })
    | .classpath => return (s.1, { r with classpath := r.classpath ++ value.toList })
    | .flag => return (s.1, { r with flags := r.flags ++ value.toList })
    | .noSecurity => return (s.1, { r with noSecurity := true })
    | .policyFile => return (s.1, { r with policyFile := fileOf value })

/-- Read what stands behind `run`. Answers the words that are left over, too. -/
def parse (words : List String) : Except Stop (RunOptions × List String) := do
  let ((snippet, r), extra) ← scan runOptions take .word (← classify runOptions words) (none, default)
  match snippet with
  | some s => return ({ r with snippet := s }, extra)
  | none => .error (missing "snippet")

end RunOptions

namespace Command

/-- Read what stands behind `policy`, which is nothing. -/
def parsePolicy (words : List String) : Except Stop (List String) := do
  let take (s : Unit) : Given Unit → Except Stop Unit
    | .option .. => .error .help
    | .operand _ => .ok s
  return (← scan policyOptions take .none (← classify policyOptions words) ()).2

/-- Read a command's name and what stands behind it. -/
def parseAction (words : List String) : Except Stop (Action × List String) :=
  match words with
  | [] => .error (missing "command")
  | name :: rest => do
    if name = "run" then
      let (r, extra) ← RunOptions.parse rest
      return (.run r, extra)
    else if name = "policy" then return (.policy, ← parsePolicy rest)
    else .error (.usage ("argument command: invalid choice: " ++ Text.quote name ++ " (choose from " ++
      ", ".intercalate (commandNames.map Text.quote) ++ ")"))

/-- Take a leading option or the command. -/
def take (s : Option String × Option (Action × List String)) :
    Given LeadingOption → Except Stop (Option String × Option (Action × List String))
  | .operand words => do return (s.1, some (← parseAction words))
  | .option o value =>
    match o.key with
    | .help => .error .help
    | .config => .ok (fileOf value, s.2)

/-- Read a command line. Nothing may be left over. -/
def parse (words : List String) : Except Stop Command := do
  let ((file, action), extra) ← scan leadingOptions take .rest (← classify leadingOptions words) (none, none)
  match action with
  | none => .error (missing "command")
  | some (action, more) =>
    match extra ++ more with
    | [] => return ⟨file, action⟩
    | left => .error (.usage ("unrecognized arguments: " ++ " ".intercalate left))

/-- The configuration of a file, with the options of `run` in front. -/
def override (files : FileTree) (base : EngineConfig) (r : RunOptions) : Except Fault EngineConfig := do
  let policy ← match r.policyFile with
    | some f => Policy.ofFile files f
    | none => pure base.policy
  EngineConfig.make files.cwd
    { classpath := .tuple (base.classpath.map .text ++ r.classpath)
      flags := .tuple (base.flags.map .text ++ r.flags)
      securityEnabled := if base.securityEnabled.truth then .bool (!r.noSecurity) else base.securityEnabled
      timeout := r.timeout.getD base.timeout
      policy
      maxUnits := base.maxUnits }

/-- The configuration that a command asks for. -/
def config (files : FileTree) (c : Command) : Except Fault EngineConfig := do
  let base ← match c.configFile with
    | some f => EngineConfig.ofFile files f
    | none => EngineConfig.make files.cwd Settings.default
  match c.action with
  | .policy => return base
  | .run r => override files base r

end Command

end Evalbox.Cli
