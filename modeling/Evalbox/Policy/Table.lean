import Evalbox.Datum.Basic
import Evalbox.Files.Read
import Evalbox.Policy.Basic
import Evalbox.Toml.Document

/-!
# Policies from tables and files

A table sets the fields of a policy that it names; the others keep their defaults. A policy file holds
such a table, or one under the key `policy`. A file that is not there stands for
`Policy.ofMissingFile`.
-/

namespace Evalbox

/-- A list of texts in a table. Nothing counts as the empty list. -/
def Datum.strings (field : String) : Datum → Except Fault (List String)
  | .none => .ok []
  | .list items =>
    items.mapM fun
      | .text s => .ok s
      | _ => .error (.value ("'" ++ field ++ "' must contain only strings"))
  | _ => .error (.value ("'" ++ field ++ "' must be a list of strings"))

namespace Policy

/-- Read a table. Lists are read first, the mode last. -/
def ofTable (t : Toml.Table) (path : Option String) : Except Fault Policy := do
  let field (key : String) (default : List String) : Except Fault (List String) :=
    match Datum.entry? t key with
    | some d => d.strings key
    | none => .ok default
  let allowedImports ← field "allowed_imports" default.allowedImports
  let blockedImports ← field "blocked_imports" default.blockedImports
  let allowedBuiltins ← field "allowed_builtins" default.allowedBuiltins
  let blockedBuiltins ← field "blocked_builtins" default.blockedBuiltins
  let blockedEvents ← field "blocked_events" default.blockedEvents
  let mode := match Datum.entry? t "mode" with
    | some d => PolicyMode.ofName? d.asText
    | none => some default.mode
  match mode with
  | some mode =>
    .ok ⟨mode, allowedImports, blockedImports, allowedBuiltins, blockedBuiltins, blockedEvents, path⟩
  | none => .error PolicyMode.unknown

/-- The table of a policy document. -/
def tableOf (document : Toml.Table) : Except Fault Toml.Table :=
  match Datum.entry? document "policy" with
  | none => .ok document
  | some (.dict t) => .ok t
  | some _ => .error (.value "Policy config must be a TOML table")

/-- Read a policy file. -/
def ofFile (files : FileTree) (path : String) : Except Fault Policy :=
  let place := Path.tidy path
  if files.exists place then do
    ofTable (← tableOf (← Toml.read (← files.readText place))) (some path)
  else .ok { ofMissingFile with path := some path }

end Policy

end Evalbox
