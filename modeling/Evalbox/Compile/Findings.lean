import Evalbox.Diagnostics.Basic
import Evalbox.Flags
import Evalbox.Lang.Check
import Evalbox.Lang.Imports
import Evalbox.Lang.Parse
import Evalbox.Modules.Find

/-!
# What compiling a source finds

`Findings.ofSource` compiles a source and collects all that is to be said about it: why it is
refused, the warnings about it, and the imports that nothing on the classpath or the host answers.
What of this is reported, and how seriously, is decided afterwards, by `Findings.messages`.
-/

namespace Evalbox

open Lang

/-- A compiled source: its statements, and the file that its frames name. -/
structure Program where
  filename : String
  body : List Stmt
  optimize : Nat
  lazyHints : Bool
  deriving Inhabited

/-- All that is to be said about a source. There is a program unless the source is refused. -/
structure Findings where
  refusal : Option Refusal
  warnings : List Warning
  unresolved : List ImportedRoot
  program : Option Program
  deriving Inhabited

/-- The level of a warning, from the names of its category and of the categories above it. -/
def warningLevel (lineage : List String) (fatal : Bool) : Level :=
  if fatal then Level.error
  else if lineage.contains "DeprecationWarning" || lineage.contains "PendingDeprecationWarning" then
    Level.info
  else Level.warning

namespace Lang

/-- The name of a warning's category. -/
def WarningKind.name : WarningKind → String
  | .deprecation => "DeprecationWarning"
  | .grammar => "SyntaxWarning"

/-- A warning as a message. Only its line is known. -/
def Warning.message (w : Warning) (fatal : Bool) : Message :=
  ⟨warningLevel [w.kind.name] fatal, w.kind.name ++ ": " ++ w.text, some w.line, none, none, none⟩

/-- An import that was not resolved, as a message at its statement. -/
def ImportedRoot.message (r : ImportedRoot) (fatal : Bool) : Message :=
  ⟨if fatal then Level.error else Level.warning, "module '" ++ r.root ++ "' not found on classpath",
    some r.line, some (r.column + 1), none, none⟩

/-- A refusal as a message. -/
def Refusal.message : Refusal → Message
  | .nullCharacter => .plain Level.error nullText
  | .rejected r =>
    ⟨Level.error, r.kind.name ++ ": " ++ r.text, some r.line, some r.column, some r.endLine,
      some r.endColumn⟩

/-- A refusal as a fault of the reading of a file. -/
def Refusal.fault (file : String) : Refusal → Fault
  | .nullCharacter => .value nullText
  | .rejected r => ⟨r.kind.name, r.text ++ " (" ++ file ++ ", line " ++ toString r.line ++ ")"⟩

/-- A bound on the depth of the syntax tree of a text. -/
def treeDepth (text : List Char) : Nat := 4 * (text.length + 4)

end Lang

namespace Findings

/-- Compile a source. `resolves` tells which top-level modules can be imported. -/
def ofSource (resolves : String → Bool) (source : List Char) (filename : String) (optimize : Int)
    (futureFlags : Nat) : Findings :=
  match parse source (hasFeature futureFlags bdflFlag) with
  | (.error r, ws) => ⟨some r, ws, [], none⟩
  | (.ok body, ws) =>
    let dropAsserts := optimize ≥ 1
    let lazyHints := hasFeature futureFlags lazyHintsFlag
    match check (treeDepth source) ⟨dropAsserts, lazyHints⟩ body with
    | (.error r, more) => ⟨some (.rejected r), ws ++ more, [], none⟩
    | (.ok (), more) =>
      ⟨none, ws ++ more, (importedRoots body).filter fun r => !resolves r.root,
        some ⟨filename, body, optimize.toNat, lazyHints⟩⟩

/-- What is reported: the refusal, the warnings unless they are suppressed, and the unresolved imports
if these are asked for. -/
def messages (f : Findings) (o : CompilerOptions) : List Message :=
  f.refusal.toList.map Refusal.message ++
  (if o.suppressWarnings then [] else f.warnings.map (·.message o.fatalWarnings)) ++
  (if o.checkImports then f.unresolved.map (·.message o.fatalWarnings) else [])

end Findings

end Evalbox
