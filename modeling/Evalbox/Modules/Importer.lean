import Evalbox.Modules.Find
import Evalbox.Text.Quoted

/-!
# The importer of the classpath

Modules on the classpath are loaded once and kept in a cache of their own; the host never learns of them.
A module is in the cache while its body runs, so that circular imports end, and a module whose body fails
is forgotten again. A name whose root the classpath does not have is handed to the host.

`Importing` is what the importer needs of its surroundings. Bodies of modules run inside `execute`, and
they may import in turn; therefore the loading of other modules is a parameter `again` of each function.
-/

namespace Evalbox

/-- Why an import fails before any module is run. -/
inductive ImportRefusal where
  /-- a relative name without a package -/
  | noPackage (name : String)
  | beyondTop
  /-- no entry of the search path has code for the module -/
  | missing (name : String)
  /-- the root of a loaded module is not cached -/
  | lostRoot (root : String)
  deriving DecidableEq, Repr

namespace ImportRefusal

def text : ImportRefusal → String
  | noPackage name => "no package specified for " ++ Text.quote name ++ " (required for relative module names)"
  | beyondTop => "attempted relative import beyond top-level package"
  | missing name => "No module named " ++ Text.quote name ++ " on classpath"
  | lostRoot root => root

end ImportRefusal

/-- The name that a name means in the package that lies `levels - 1` above another one, if there is such a
package. -/
def nameWithin (name package : String) (levels : Nat) : Option String :=
  (Dotted.ascend package (levels - 1)).map fun base => if name = "" then base else base ++ "." ++ name

/-- The absolute name that a name means `level` packages up from a package. Dots in front of the name lead up
further. -/
def absoluteName (name package : String) (level : Nat) : Except ImportRefusal String :=
  if level = 0 then .ok name
  else if package = "" then .error (.noPackage (String.ofList (List.replicate level '.') ++ name))
  else
    let dots := name.toList.takeWhile (· = '.')
    let rest := name.toList.dropWhile (· = '.')
    match nameWithin (String.ofList rest) package (level + dots.length) with
    | none => .error .beyondTop
    | some absolute => .ok absolute

/-- A call of the importer. `package` is that of the code that imports; `names` are taken from the
module. A negative level means none. -/
structure ImportRequest where
  name : String
  package : String
  names : List String
  level : Int
  deriving DecidableEq, Repr, Inhabited

/-- The name under which the host is asked. Dots in front of the name are part of it there. -/
def ImportRequest.hostName (r : ImportRequest) : String :=
  if r.level ≤ 0 then r.name else (nameWithin r.name r.package r.level.toNat).getD r.name

/-- What an importer works with: the cache of modules, the search for their sources, the modules
themselves, and how failures are raised and passed through. -/
structure Importing (m : Type → Type) (μ : Type) where
  entries : m (List String)
  cached : String → m (Option μ)
  remember : String → μ → m Unit
  forget : String → m Unit
  find : String → List String → m (Option ModuleSpec)
  create : ModuleSpec → m μ
  execute : ModuleSpec → μ → m Unit
  /-- where the modules inside a module are searched -/
  searchPath : μ → m (Option (List String))
  hasAttr : μ → String → m Bool
  setAttr : μ → String → μ → m Unit
  refuse : ImportRefusal → m μ
  /-- do the first work, and the second one too if the first one fails -/
  onFailure : m Unit → m Unit → m Unit
  /-- do the work while no other thread loads modules -/
  alone : m μ → m μ
  /-- import from the host -/
  host : ImportRequest → String → m μ

namespace Importing

variable {m : Type → Type} {μ : Type} [Monad m] (ops : Importing m μ)

/-- Whether the classpath has the root of a name. -/
def owns (name : String) : m Bool := do
  let root := Dotted.root name
  match ← ops.cached root with
  | some _ => return true
  | none =>
    let entries ← ops.entries
    if entries.isEmpty then return false else return (← ops.find root entries).isSome

/-- Make a module and run its body. -/
def run (name : String) (spec : ModuleSpec) : m μ := do
  let module ← ops.create spec
  ops.remember name module
  ops.onFailure (ops.execute spec module) (ops.forget name)
  return module

/-- Load a module that is not cached, behind the module that it lies in, if there is one. -/
def loadBelow (name : String) (parent : Option μ) : m μ := do
  let path ← match parent with
    | none => ops.entries
    | some p => do pure ((← ops.searchPath p).getD [])
  match ← ops.find name path with
  | none => ops.refuse (.missing name)
  | some spec =>
    if spec.source.isNone then ops.refuse (.missing name)
    else do
      let module ← ops.run name spec
      match parent with
      | some p => ops.setAttr p (Dotted.last name) module
      | none => pure ()
      return module

/-- Load a module, after the module that it lies in, whose body may already have loaded it. -/
def load (again : String → m μ) (name : String) : m μ := do
  match ← ops.cached name with
  | some module => return module
  | none =>
    if Dotted.parent name = "" then ops.loadBelow name none
    else do
      let parent ← again (Dotted.parent name)
      match ← ops.cached name with
      | some module => return module
      | none => ops.loadBelow name (some parent)

/-- Load those of the names that are modules inside a module. -/
def loadNames (again : String → m μ) (name : String) (module : μ) : List String → m Unit
  | [] => return ()
  | n :: rest => do
    let known ← (if n = "*" then return true else ops.hasAttr module n)
    if !known then
      if ← ops.hasAttr module "__path__" then
        let _ ← again (name ++ "." ++ n)
    loadNames again name module rest

/-- Import a module whose root the classpath has. -/
def importOwned (again : String → m μ) (r : ImportRequest) (name : String) : m μ := do
  let module ← again name
  if !r.names.isEmpty then do
    ops.loadNames again name module r.names
    return module
  else if r.level > 0 then return module
  else match ← ops.cached (Dotted.root name) with
    | some root => return root
    | none => ops.refuse (.lostRoot (Dotted.root name))

/-- Import a module: from the classpath if it has the root of its name, from the host otherwise. -/
def importModule (again : String → m μ) (r : ImportRequest) : m μ := do
  match absoluteName r.name r.package r.level.toNat with
  | .error e => ops.refuse e
  | .ok name =>
    if ← ops.owns name then ops.alone (ops.importOwned again r name)
    else ops.host r r.hostName

end Importing

end Evalbox
