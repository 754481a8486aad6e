import Evalbox.Exec.Raise
import Evalbox.Lang.Bindings

/-!
# Variables

How a block reads, binds and drops a name. A call looks among its own variables, then among those of
the calls around it, then in the module and among the builtins; a class body or a module looks in its
namespace first. Private names of a class are spelled with the name of the class.
-/

namespace Evalbox

/-- The calls around a function that is defined in these surroundings. -/
def Env.around (e : Env) : List (Ref × List String) :=
  match e.scope with
  | .call vars locals => (vars, locals) :: e.enclosing
  | .space _ => e.enclosing

namespace M

/-- The variables that an object holds. -/
def namesOf (r : Ref) : M Names := do
  match ← obj r with
  | .names ns => return ns
  | .dict es => return es.filterMap fun (k, v) => match k with
    | .text n => some (n, v)
    | _ => none
  | _ => return []

/-- Set one of the variables that an object holds. -/
def setName (r : Ref) (name : String) (v : Value) : M Unit := do
  match ← obj r with
  | .names ns => put r (.names (ns.put name v))
  | .dict es =>
    let key : Value := .text name
    put r (.dict (if es.any (·.1.sameKey key) then
        es.map fun (k, w) => if k.sameKey key then (k, v) else (k, w)
      else es ++ [(key, v)]))
  | _ => pure ()

/-- Drop one of the variables that an object holds. -/
def eraseName (r : Ref) (name : String) : M Unit := do
  match ← obj r with
  | .names ns => put r (.names (ns.erase name))
  | .dict es => put r (.dict (es.filter fun (k, _) => !k.sameKey (.text name)))
  | _ => pure ()

def nameError {α : Type} (cls name text : String) : M α :=
  raiseWith cls [.text text] [("name", .text name)]

def unknownName {α : Type} (name : String) : M α :=
  nameError "NameError" name ("name '" ++ name ++ "' is not defined")

def unboundLocal {α : Type} (name : String) : M α :=
  nameError "UnboundLocalError" name
    ("cannot access local variable '" ++ name ++ "' where it is not associated with a value")

def unboundFree {α : Type} (name : String) : M α :=
  nameError "NameError" name
    ("cannot access free variable '" ++ name ++ "' where it is not associated with a value in enclosing scope")

/-- Read a name of the module, or of the builtins. -/
def readGlobal (env : Env) (name : String) : M Value := do
  match (← namesOf env.globals).lookup name with
  | some v => return v
  | none =>
    match (← namesOf env.builtins).lookup name with
    | some v => return v
    | none => unknownName name

/-- Read a name from the calls around, or from the module. -/
def readAround (env : Env) (name : String) : M Value := do
  match env.enclosing.find? (·.2.contains name) with
  | some (vars, _) =>
    match (← namesOf vars).lookup name with
    | some v => return v
    | none => unboundFree name
  | none => readGlobal env name

/-- Read a name. -/
def readName (env : Env) (id : String) : M Value := do
  let name := Lang.privateName env.className id
  if env.global.contains name then readGlobal env name
  else match env.scope with
    | .call vars locals =>
      if locals.contains name then
        match (← namesOf vars).lookup name with
        | some v => return v
        | none => unboundLocal name
      else readAround env name
    | .space vars =>
      match (← namesOf vars).lookup name with
      | some v => return v
      | none => readAround env name

/-- The object in which a block keeps a name. -/
def homeOf (env : Env) (name : String) : Ref :=
  if env.global.contains name then env.globals
  else match env.scope with
    | .call vars locals =>
      if locals.contains name then vars
      else match env.enclosing.find? (·.2.contains name) with
        | some (around, _) => around
        | none => env.globals
    | .space vars => vars

/-- Bind a name. -/
def bindName (env : Env) (id : String) (v : Value) : M Unit :=
  let name := Lang.privateName env.className id
  setName (homeOf env name) name v

/-- Drop a name, which has to be bound. -/
def dropName (env : Env) (id : String) : M Unit := do
  let name := Lang.privateName env.className id
  let home := homeOf env name
  if ((← namesOf home).lookup name).isSome then eraseName home name
  else match env.scope with
    | .call _ locals =>
      if locals.contains name then unboundLocal name
      else if home = env.globals then unknownName name
      else unboundFree name
    | .space _ => unknownName name

end M

end Evalbox
