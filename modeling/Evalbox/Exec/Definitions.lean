import Evalbox.Exec.Call
import Evalbox.Lang.Printer

/-!
# Functions from definitions

How a definition becomes a function: its parameters with their defaults, its own names, and what is
written in front of its body.
-/

namespace Evalbox

/-- The value of a literal. -/
def Value.ofConstant : Lang.Constant → Value
  | .none => .none
  | .bool b => .bool b
  | .ellipsis => .ellipsis
  | .int n => .int n
  | .float x => .float x
  | .imaginary x => .complex 0 x
  | .text s _ => .text s
  | .bytes b => .bytes b

/-- The parameters of a function with the values of their defaults. -/
def parametersOf (ps : Lang.Params) (spell : String → String) (defaults : List Value)
    (keywordDefaults : List (Option Value)) : List Parameter :=
  match ps with
  | .mk po p _ ko _ _ _ =>
    let positional := po.map (fun x => (x.name, ParamKind.positionalOnly)) ++ p.map fun x => (x.name, .plain)
    let missing := positional.length - defaults.length
    let given : List (Option Value) := List.replicate missing none ++ defaults.map some
    (positional.zip given).map (fun ((n, k), d) => ⟨spell n, k, d⟩) ++
      (ko.zip keywordDefaults).map fun (x, d) => ⟨spell x.name, .keywordOnly, d⟩

namespace Env

/-- The text in front of a body that describes it. -/
def documentation (e : Env) (body : List Lang.Stmt) : Value :=
  match body with
  | .expr _ (.constant _ (.text s _)) :: _ => if e.optimize ≥ 2 then .none else .text s
  | _ => .none

/-- The spelling of a name in these surroundings. -/
def spell (e : Env) (name : String) : String := Lang.privateName e.className name

/-- The qualified name of what is defined here. -/
def qualified (e : Env) (name : String) : String := if e.global.contains name then name else e.path ++ name

end Env

namespace M

/-- Read a name. One name tells whether assertions are kept. -/
def readVariable (env : Env) (id : String) : M Value :=
  if id = "__debug__" then return .bool (env.optimize = 0) else readName env id

/-- The value of an expression of a block. -/
def part (env : Env) (e : Lang.Expr) : M Value :=
  match e with
  | .constant _ c => return .ofConstant c
  | .name s id => atLine s.start.line (readVariable env id)
  | e => valueOf (.expr env e)

/-- The values of expressions from left to right. -/
def parts (env : Env) : List Lang.Expr → M (List Value)
  | [] => return []
  | e :: rest => do
    let v ← part env e
    return v :: (← parts env rest)

/-- The name of the module that code belongs to. -/
def moduleName (env : Env) : M Value := do
  return ((← namesOf env.globals).lookup "__name__").getD .none

/-- Make a function. -/
def makeFunction (env : Env) (name : String) (ps : Lang.Params) (defaults : List Value)
    (keywordDefaults : List (Option Value)) (body : FunctionBody) (coroutine : Bool) (hints : Value) : M Value := do
  match ps with
  | .mk _ _ rest _ _ keywordRest _ =>
    let params := parametersOf ps env.spell defaults keywordDefaults
    let restName := rest.map fun p => env.spell p.name
    let keywordRestName := keywordRest.map fun p => env.spell p.name
    let all := params.map Parameter.name ++ restName.toList ++ keywordRestName.toList
    let (locals, globals, generator, doc) : List String × List String × Bool × Value :=
      match body with
      | .expression e =>
        (all ++ (e.namedIn Lang.treeBound).map env.spell, [], e.yields Lang.treeBound, .none)
      | .statements b =>
        let (l, g) := Lang.blockNames [] b
        let declared := g ++ b.flatMap (Lang.Stmt.nonlocalNames Lang.treeBound)
        ((all.filter (!declared.contains ·)) ++ l.map env.spell, g.map env.spell,
          b.any (Lang.Stmt.yields Lang.treeBound), env.documentation b)
    make (.function
      { name, qualname := env.qualified name, module := ← moduleName env, doc, params, rest := restName,
        keywordRest := keywordRestName, body, locals, globalNames := globals, generator, coroutine, env,
        attrs := [], hints })

end M

end Evalbox
