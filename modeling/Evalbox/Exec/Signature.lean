import Evalbox.Exec.Arguments

/-!
# Arguments of the language's own functions

How the arguments of a function of the language are checked against its arity, or given to its parameters
by position and by name.
-/

namespace Evalbox

namespace M

/-- Make sure that a function gets arguments by position only, and as many as it takes. -/
def checkArity (a : Arity) (name : String) (args : List Value) (kwargs : Names) : M Unit := do
  if !kwargs.isEmpty && a ≠ .free then typeError (name ++ "() takes no keyword arguments")
  else match a.fault? name args.length with
    | some text => typeError text
    | none => pure ()

/-- Give arguments to named parameters of a function of the language; what is not given is none. -/
def takeArguments (name : String) (params : List String) (args : List Value) (kwargs : Names) :
    M (List (Option Value)) := do
  if args.length + kwargs.length > params.length then
    typeError (name ++ "() takes at most " ++ toString params.length ++
      (if args.isEmpty then " keyword argument" else " argument") ++ plural params.length ++ " (" ++
      toString (args.length + kwargs.length) ++ " given)")
  else
    match kwargs.find? fun (k, _) => !params.contains k with
    | some (k, _) => typeError ("'" ++ k ++ "' is an invalid keyword argument for " ++ name ++ "()")
    | none =>
      match kwargs.find? fun (k, _) => (params.take args.length).contains k with
      | some (k, _) =>
        typeError ("argument for " ++ name ++ "() given by name ('" ++ k ++ "') and position (" ++
          toString (params.idxOf k + 1) ++ ")")
      | none =>
        return (args.map some) ++ (params.drop args.length).map fun p => kwargs.lookup p

/-- An argument that may have been given. -/
def argumentAt (given : List (Option Value)) (i : Nat) : Option Value := given[i]?.join

/-- An argument as an integer. -/
def needInt (v : Value) : M Int := do
  match v.int? with
  | some n => return n
  | none =>
    match ← callUser v "__index__" [] with
    | some w => return w.int?.getD 0
    | none => typeError ("'" ++ (← typeName v) ++ "' object cannot be interpreted as an integer")

end M

end Evalbox
