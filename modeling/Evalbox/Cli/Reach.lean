import Evalbox.Cli.Program

/-!
# Files within reach

Which files a command can read: those that it names, those that its configuration names, and the sources of
modules that a text imports. A module can stand in a file of its own or in a directory with its name, in each
entry of the classpath, or beside the text if its name is relative.
-/

namespace Evalbox.Cli

/-- The files that a command names. -/
def Command.namedFiles (c : Command) : List String :=
  c.configFile.toList ++ match c.action with
    | .policy => []
    | .run r => r.snippet :: r.policyFile.toList ++ (r.prelude.map (·.asText)).toList

/-- The policy file that a configuration file names. -/
def namedPolicy (files : FileTree) (path : String) : Option String :=
  let place := Path.tidy path
  match files.readText place with
  | .error _ => none
  | .ok text =>
    match Toml.read text with
    | .error _ => none
    | .ok document =>
      match Datum.entry? document "engine" with
      | some (.dict engine) =>
        (Datum.entry? engine "policy_file").map fun f => Path.tidy (Path.join (Path.parent place) f.asText)
      | _ => none

/-- Where the modules along a dotted name can stand below a directory. -/
def moduleFiles (directory name : String) : List String :=
  let parts := name.splitOn "."
  (List.range parts.length).flatMap fun i =>
    let base := Path.join directory ("/".intercalate (parts.take (i + 1)))
    [base ++ ".py", base ++ "/__init__.py"]

/-- The directory from which a relative name of some level starts. -/
def startOf (directory : String) : Nat → String
  | 0 | 1 => directory
  | n + 2 => startOf (Path.parent directory) (n + 1)

/-- The files that an import statement can lead to, for a text in a directory. -/
def importFiles (entries : List String) (directory : String) : Lang.Stmt → List String
  | .importing _ names => entries.flatMap fun e => names.flatMap fun a => moduleFiles e a.name
  | .importFrom _ m names level =>
    let places := if level = 0 then entries else [startOf directory level]
    let dotted := (m.getD "").splitOn "." |>.filter (· ≠ "")
    places.flatMap fun e => names.flatMap fun a => moduleFiles e (".".intercalate (dotted ++ [a.name]))
  | _ => []

/-- The files that the imports of a text can lead to. -/
def textFiles (entries : List String) (directory text : String) : List String :=
  match Lang.parse text.toList false with
  | (.ok body, _) => (Lang.importStatements body).flatMap (importFiles entries directory)
  | (.error _, _) => []

end Evalbox.Cli
