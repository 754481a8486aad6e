import Evalbox.Exec.Attributes

/-!
# Arguments

How the arguments of a call become the variables of a function, and the texts of the errors when they
do not fit. Positions are filled first, then names; what is left over goes to the parameters that take
any number of arguments, if there are such.
-/

namespace Evalbox

/-- Names in quotes, joined for a sentence. -/
def quotedList (names : List String) : String :=
  let qs := names.map fun n => "'" ++ n ++ "'"
  match qs with
  | [] => ""
  | [a] => a
  | [a, b] => a ++ " and " ++ b
  | qs => ", ".intercalate qs.dropLast ++ ", and " ++ qs.getLastD ""

namespace Function

/-- The parameters that positions fill. -/
def positional (f : Function) : List Parameter := f.params.filter (·.kind ≠ .keywordOnly)

def keywordOnly (f : Function) : List Parameter := f.params.filter (·.kind = .keywordOnly)

/-- The text of the error when there are too many positions. -/
def excessText (f : Function) (given : Nat) (bound : Names) : String :=
  let most := f.positional.length
  let least := (f.positional.filter (·.default.isNone)).length
  let takes := if least < most then "from " ++ toString least ++ " to " ++ toString most else toString most
  let many := if least < most then "s" else plural most
  let named := (f.keywordOnly.filter fun p => (bound.lookup p.name).isSome).length
  let were := if named = 0 then (if given = 1 then " was given" else " were given")
    else " positional argument" ++ plural given ++ " (and " ++ toString named ++ " keyword-only argument" ++
      plural named ++ ") were given"
  f.qualname ++ "() takes " ++ takes ++ " positional argument" ++ many ++ " but " ++ toString given ++ were

/-- The text of the error when arguments are missing. -/
def missingText (f : Function) (what : String) (names : List String) : String :=
  f.qualname ++ "() missing " ++ toString names.length ++ " required " ++ what ++ " argument" ++
    plural names.length ++ ": " ++ quotedList names

end Function

namespace M

/-- Give the arguments that are named to their parameters. Answers what is bound, and what was left for
a mapping. -/
def bindKeywords (f : Function) : Names → Names → Names → M (Names × Names)
  | bound, others, [] => return (bound, others)
  | bound, others, (name, v) :: rest => do
    match f.params.find? (·.name = name) with
    | some p =>
      if p.kind = .positionalOnly then
        if f.keywordRest.isSome then bindKeywords f bound (others.put name v) rest
        else typeError (f.qualname ++ "() got some positional-only arguments passed as keyword arguments: '" ++
          name ++ "'")
      else if (bound.lookup name).isSome then
        typeError (f.qualname ++ "() got multiple values for argument '" ++ name ++ "'")
      else bindKeywords f (bound ++ [(name, v)]) others rest
    | none =>
      if f.keywordRest.isSome then bindKeywords f bound (others.put name v) rest
      else typeError (f.qualname ++ "() got an unexpected keyword argument '" ++ name ++ "'")

/-- The variables of a call. -/
def bindArguments (f : Function) (args : List Value) (kwargs : Names) : M Names := do
  let ps := f.positional
  let filled : Names := (ps.zip args).map fun (p, v) => (p.name, v)
  let extra := args.drop ps.length
  let (bound, others) ← bindKeywords f filled [] kwargs
  if !extra.isEmpty && f.rest.isNone then typeError (f.excessText args.length bound)
  else
    let missing (q : List Parameter) : List String :=
      (q.filter fun p => (bound.lookup p.name).isNone && p.default.isNone).map (·.name)
    let lost := missing ps
    let lostNamed := missing f.keywordOnly
    if !lost.isEmpty then typeError (f.missingText "positional" lost)
    else if !lostNamed.isEmpty then typeError (f.missingText "keyword-only" lostNamed)
    else
      let all : Names := f.params.filterMap fun p =>
        match bound.lookup p.name, p.default with
        | some v, _ => some (p.name, v)
        | none, some d => some (p.name, d)
        | none, none => none
      let restVars : Names := (f.rest.map fun n => (n, Value.tuple extra)).toList
      match f.keywordRest with
      | none => return all ++ restVars
      | some n => do
        let d ← make (.dict (others.map fun (k, v) => (.text k, v)))
        return all ++ restVars ++ [(n, d)]

end M

namespace Function

/-- The surroundings in which the body of a function runs, given its variables. -/
def inside (f : Function) (vars : Ref) : Env :=
  { f.env with
    scope := .call vars f.locals
    enclosing := f.env.around
    global := f.globalNames
    path := f.qualname ++ ".<locals>." }

end Function

namespace M

variable {α : Type}

/-- Run a block of its own: an exception that leaves it notes where. -/
def frame (file : String) (m : M α) : M α := do
  match ← attempt m with
  | .ok a => return a
  | .error e =>
    if !e.recorded then change fun h => h.recordFrame e.exc file (e.line.getD 0)
    fail ⟨e.exc, none, false⟩

/-- Note in an exception where it was raised, before it is handled in the same block. -/
def noteRaised (file : String) (e : Raised) : M Raised := do
  if e.recorded then return e
  else
    change fun h => h.recordFrame e.exc file (e.line.getD 0)
    return { e with recorded := true }

/-- Run the body of a function in its variables. -/
def enterFunction (f : Function) (vars : Ref) : M Value := do
  let env := f.inside vars
  frame env.file do
    match f.body with
    | .expression e => valueOf (.expr env e)
    | .statements b =>
      match ← run (.block env b) with
      | .ret v => return v
      | _ => return .none

/-- Call a function of a snippet or a module. -/
def callFunction (f : Function) (args : List Value) (kwargs : Names) : M Value := do
  let vars ← alloc (.names (← bindArguments f args kwargs))
  if f.generator || f.coroutine then
    let id ← fun h => Act.create h (.produce f vars) fun h n => .done h (.ok n)
    make (.generator id .fresh f.name f.qualname (if f.coroutine then "coroutine" else "generator"))
  else valueOf (.enter f vars)

end M

end Evalbox
