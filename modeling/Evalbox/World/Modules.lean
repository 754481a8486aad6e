import Evalbox.World.Drive

/-!
# Importing for a host

The importer of the classpath as its owner uses it: modules are imported on a thread that nothing guards,
and what they are is told by their names and attributes.
-/

namespace Evalbox

/-- A module that was imported: its name, whether the importer keeps it, and which of the names that were
asked for it has. -/
structure ImportedModule where
  name : Datum
  kept : Bool
  has : List Bool
  deriving Inhabited

namespace World

/-- How much the work of one import may cost. -/
def importBudget (w : World) : Budget := ⟨1000000, w.world.clock + 1000000000000⟩

/-- Answer a question about the heap. -/
def holds (w : World) (question : M Bool) : Bool × World :=
  match w.perform .main (do return .value (.bool (← question))) w.importBudget with
  | (.returned (.bool b), w) => (b, w)
  | (_, w) => (false, w)

/-- Whether the classpath has the root of a name. -/
def owns (w : World) (name : String) : Bool × World := w.holds (M.importing.owns name)

/-- The names of the modules that the importer keeps. -/
def keptModules (w : World) : List String := w.world.heap.owned.map (·.1)

/-- The variables of a module. -/
def variablesOf (w : World) (module : Value) : Names :=
  match module with
  | .ref r => match w.world.heap.get r with
    | .module _ vars => match w.world.heap.get vars with
      | .names ns => ns
      | _ => []
    | _ => []
  | _ => []

/-- The attributes of a module that the importer keeps. -/
def attributesOf (w : World) (name : String) : Option (List (String × Datum)) :=
  (w.world.heap.owned.lookup name).map fun m =>
    (w.variablesOf m).map fun (n, v) => (n, w.world.heap.datum Heap.depthLimit v)

/-- Import a module, or say what the import raised. -/
def importModule (w : World) (r : ImportRequest) : Except Thrown ImportedModule × World :=
  match w.perform .main (do return .value (← M.importing.importModule M.loadTask r)) w.importBudget with
  | (.returned m, w) =>
    let name := (((w.variablesOf m).lookup "__name__").map (w.world.heap.datum Heap.depthLimit)).getD .none
    let (has, w) := r.names.foldl (fun (acc : List Bool × World) n =>
      let (b, w) := acc.2.holds (M.importing.hasAttr m n)
      (acc.1 ++ [b], w)) ([], w)
    (.ok ⟨name, w.world.heap.owned.any (M.identical ·.2 m), has⟩, w)
  | (.failed e, w) =>
    let (t, w) := w.thrown e
    (.error t, w)
  | (_, w) => (.error (.ofFault .cancelled), w)

end World

end Evalbox
