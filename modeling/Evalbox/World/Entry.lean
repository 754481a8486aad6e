import Evalbox.World.Drive

/-!
# Data that come from outside

Data are put on the heap as values, so that a host can make exceptions with arguments of its own.
-/

namespace Evalbox

namespace M

mutual

/-- Put a datum on the heap. What is known by its type only becomes nothing. -/
def ofDatum : Datum → M Value
  | .bool b => return .bool b
  | .int n => return .int n
  | .float x => return .float x
  | .text s => return .text s
  | .bytes b => return .bytes b
  | .list xs => do make (.list (← ofData xs).toArray)
  | .tuple xs => do return .tuple (← ofData xs)
  | .set xs => do make (.set false (← ofData xs))
  | .dict es => do make (.dict (← ofEntries es))
  | .classOf name => return .ref (classRef name)
  | _ => return .none

def ofData : List Datum → M (List Value)
  | [] => return []
  | x :: xs => do
    let v ← ofDatum x
    return v :: (← ofData xs)

def ofEntries : List (Datum × Datum) → M (List (Value × Value))
  | [] => return []
  | (k, d) :: es => do
    let key ← ofDatum k
    let v ← ofDatum d
    return (key, v) :: (← ofEntries es)

end

end M

namespace World

/-- The fault that an exception of a class with these arguments is. -/
def faultOf (w : World) (kind : String) (args : List Datum) : Fault × World :=
  let cls := classRef ((builtinAliases.lookup kind).getD kind)
  let work : M Signal := do
    let r ← M.makeException cls (← M.ofData args) []
    return .value (.ref r)
  match w.perform .main work ⟨textBudget, w.world.clock⟩ with
  | (.returned (.ref r), w) =>
    let (t, w) := w.thrown r
    (t.fault, w)
  | (.failed r, w) =>
    let (t, w) := w.thrown r
    (t.fault, w)
  | (_, w) => (⟨kind, ""⟩, w)

end World

end Evalbox
