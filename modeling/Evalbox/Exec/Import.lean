import Evalbox.Exec.Statements
import Evalbox.Modules.Importer

/-!
# Imports of a snippet

What the importer of the classpath works with when it serves a snippet: the modules on the heap, the
sources in the world, and the modules of the host.
-/

namespace Evalbox

namespace M

def missingModule {α : Type} (name text : String) : M α :=
  raiseWith "ModuleNotFoundError" [.text text] [("msg", .text text), ("name", .text name)]

/-- The names along a dotted name, the shortest first. -/
def dottedPrefixes (name : String) : List String :=
  let parts := name.splitOn "."
  (List.range parts.length).map fun i => ".".intercalate (parts.take (i + 1))

/-- Make sure that the host has a module. -/
def needHost : String → List String → M Unit
  | _, [] => return ()
  | parent, name :: rest => do
    if Host.offers name then needHost name rest
    else if parent ≠ "" && !Host.isPackage parent then
      missingModule name ("No module named " ++ Text.quote name ++ "; " ++ Text.quote parent ++ " is not a package")
    else missingModule name ("No module named " ++ Text.quote name)

/-- Import from the host. -/
def importHost (name : String) (names : Option (List String)) (top : Bool) : M Value := do
  needHost "" (dottedPrefixes name)
  let leaf ← hostPath name
  match names with
  | some ns => do
    for n in ns do
      if Host.offers (name ++ "." ++ n) then let _ ← hostPath (name ++ "." ++ n)
    return leaf
  | none => if top then hostModule (Dotted.root name) else return leaf

/-- The names that a new module of the classpath begins with. -/
def freshNames (spec : ModuleSpec) (builtins : Ref) (paths : Option Value) : Names :=
  [("__name__", .text spec.name), ("__doc__", .none),
    ("__package__", .text (if spec.locations.isSome then spec.name else Dotted.parent spec.name)),
    ("__loader__", .none), ("__spec__", .none), ("__file__", .text (spec.source.getD ""))] ++
    (paths.map fun v => ("__path__", v)).toList ++ [("__builtins__", .ref builtins)]

/-- All builtins of the host, with an import function. -/
def hostBuiltins (importer : Value) : Names :=
  builtinFunctions.map (fun f => (f, .native f)) ++
    (builtinClassNames ++ builtinExceptions).map (fun c => (c, .ref (classRef c))) ++
    builtinAliases.map (fun (n, c) => (n, .ref (classRef c))) ++
    [("None", .none), ("True", .bool true), ("False", .bool false), ("Ellipsis", .ellipsis),
     ("NotImplemented", .notImplemented), ("__debug__", .bool true), ("__name__", .text "builtins"),
     ("__doc__", .none), ("__package__", .text ""), ("__loader__", .none), ("__spec__", .none),
     ("__import__", importer)] ++
    siteObjects.map fun (n, _) => (n, .native (if n = "quit" || n = "exit" then "sys.exit" else "site." ++ n))

/-- The source of a module, after its reading has been announced. -/
def sourceText (path : String) : M (List Char) := do
  match ← ask (.source path) with
  | .bytes (some bs) =>
    match Text.decode bs with
    | .ok cs => return cs
    | .error f => raiseWith "SyntaxError" [.text ("(unicode error) " ++ f.message)] [("filename", .text path), ("lineno", .int 0)]
  | .fault f => raiseFault f
  | _ => raise "ImportError" "source not available through get_source()"

/-- Run the source of a module. -/
def runModule (path : String) (vars builtins : Ref) : M Unit := do
  let cs ← sourceText path
  audit "compile" [.bytes (Text.encode cs), .text path]
  match Lang.parse cs false with
  | (.error r, _) => raiseRefusal path r
  | (.ok body, _) =>
    match Lang.check (4 * (cs.length + 4)) ⟨false, false⟩ body with
    | (.error r, _) => raiseRefusal path (.rejected r)
    | (.ok (), _) => do
      audit "exec" [.text "code"]
      let lazyHints := match Lang.Check.futuresOf body with
        | .ok (_, fs) => fs.contains "annotations"
        | .error _ => false
      let env : Env := ⟨path, .space vars, [], vars, builtins, [], none, "", lazyHints, 0⟩
      match env.documentation body with
      | .none => pure ()
      | d => setName vars "__doc__" d
      frame path do
        let _ ← run (.block env body)
        return ()

/-- A value as a list of texts. -/
def textItems (v : Value) : M (List String) := do
  return (← collectAll v).filterMap fun x => match x with
    | .text s => some s
    | _ => none

/-- Make a module of the classpath, with its own copy of the builtins. -/
def createModule (spec : ModuleSpec) : M Value := do
  let importer ← make (.importer .plain)
  let builtins ← alloc (.names (hostBuiltins importer))
  let paths ← match spec.locations with
    | some ls => do pure (some (← make (.list (ls.map Value.text).toArray)))
    | none => pure none
  let vars ← alloc (.names (freshNames spec builtins paths))
  make (.module spec.name vars)

/-- Run the body of a module of the classpath. -/
def executeModule (spec : ModuleSpec) (module : Value) : M Unit := do
  match module, spec.source with
  | .ref r, some path =>
    match ← obj r with
    | .module _ vars =>
      match (← namesOf vars).lookup "__builtins__" with
      | some (.ref builtins) => runModule path vars builtins
      | _ => return ()
    | _ => return ()
  | _, _ => return ()

/-- Raise why an import fails. -/
def raiseRefused (r : ImportRefusal) : M Value :=
  match r with
  | .missing name => missingModule name r.text
  | .lostRoot root => raiseWith "KeyError" [.text root] []
  | .noPackage _ | .beyondTop => raise "ImportError" r.text

/-- The importer of the classpath for a snippet. -/
def importing : Importing M Value where
  entries := do return (← heap).entries
  cached name := do return (← heap).owned.lookup name
  remember name v := change fun h => { h with owned := h.owned.put name v }
  forget name := change fun h => { h with owned := h.owned.erase name }
  find name path := do
    match ← ask (.find name path) with
    | .spec s => return s
    | .fault f => raiseFault f
    | _ => return none
  create := createModule
  execute := executeModule
  searchPath v := do
    match ← getAttr? v "__path__" with
    | some p => return some (← textItems p)
    | none => return none
  hasAttr v name := do return (← getAttr? v name).isSome
  setAttr := setAttr
  refuse := raiseRefused
  onFailure work cleanup := do
    match ← attempt work with
    | .ok _ => return ()
    | .error e => do
      cleanup
      fail e
  alone work := do
    match ← ask .lock with
    | .fault f => raiseFault f
    | _ => do
      let res ← attempt work
      let _ ← ask .unlock
      match res with
      | .ok v => return v
      | .error e => fail e
  host r name :=
    if r.level < 0 then valueError "level must be >= 0"
    else if name = "" then valueError "Empty module name"
    else importHost name (if r.names.isEmpty then none else some r.names) (r.level = 0)

/-- Load a module by a task of its own. -/
def loadTask (name : String) : M Value := valueOf (.load name)

/-- Import by an import function, which may refuse. -/
def importBy (guarded : ImportGuard) (name : String) (package : Option String) (names : Option (List String))
    (level : Int) : M Value :=
  guarded.run raiseFault
    (fun c => importing.importModule loadTask ⟨c.name, c.origin.getD "", c.names, c.level⟩)
    ⟨name, package, names.getD [], level⟩

end M

end Evalbox
