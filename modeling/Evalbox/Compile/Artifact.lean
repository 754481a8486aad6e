import Evalbox.Compile.Findings
import Evalbox.Datum.Basic

/-!
# Units described by what they do

An artifact describes the module of a unit by its actions: those of the module, and those of the method by
which the unit is called. `Artifact.program` writes the statements; every action stands on a line of its
own, behind the one before it, or further down if it asks for that.
-/

namespace Evalbox

/-- Something that a unit does. -/
inductive Action where
  | print (text : String)
  | answer (value : Datum)
  | raise (kind text : String)
  | raiseFrom (kind text cause causeText : String)
  | load (module : String)
  | spin
  deriving Inhabited

/-- An action, and a line that it must not stand before. -/
structure ActionLine where
  action : Action
  line : Option Nat
  deriving Inhabited

/-- What the class of a unit looks like. -/
inductive ArtifactShape where
  | normal
  /-- there is none -/
  | noClass
  /-- making an instance fails -/
  | badInit
  /-- making an instance takes an argument -/
  | needsArgs
  | notCallable
  deriving DecidableEq, Repr, Inhabited

structure Artifact where
  load : List ActionLine
  call : List ActionLine
  shape : ArtifactShape
  deriving Inhabited

namespace Action

open Lang

/-- The span of a line. -/
def onLine (n : Nat) : Span := ⟨⟨n, 0, 0⟩, ⟨n, 0, 0⟩⟩

/-- An expression for a datum. -/
def literal (s : Span) : Nat → Datum → Expr
  | 0, _ => .constant s .none
  | fuel + 1, d =>
    match d with
    | .bool b => .constant s (.bool b)
    | .int n => if n < 0 then .unary s .minus (.constant s (.int n.natAbs)) else .constant s (.int n.toNat)
    | .float x => .constant s (.float x)
    | .text t => .constant s (.text t false)
    | .bytes b => .constant s (.bytes b)
    | .list xs => .list s (xs.map (literal s fuel))
    | .tuple xs => .tuple s (xs.map (literal s fuel))
    | .dict es => .dict s (es.map fun (k, v) => .pair (literal s fuel k) (literal s fuel v))
    | .classOf n => .name s n
    | _ => .constant s .none

/-- A new exception. -/
def exception (s : Span) (kind text : String) : Expr :=
  .call s (.name s kind) [.constant s (.text text false)] []

/-- The statement of an action. -/
def statement (s : Span) : Action → Stmt
  | print t =>
    .expr s (.call s (.name s "print") [.constant s (.text t false)] [.mk s (some "end") (.constant s (.text "" false))])
  | answer v => .ret s (some (literal s 200 v))
  | raise k t => .raise s (some (exception s k t)) none
  | raiseFrom k t c ct => .raise s (some (exception s k t)) (some (exception s c ct))
  | load m => .importing s [⟨s, m, none⟩]
  | spin => .whileLoop s (.constant s (.bool true)) [.pass s] []

/-- The statements of actions from a line on, with the line behind them. -/
def statements : Nat → List ActionLine → List Stmt × Nat
  | n, [] => ([], n)
  | n, a :: rest =>
    let line := max n (a.line.getD 0)
    let (more, next) := statements (line + 1) rest
    (a.action.statement (onLine line) :: more, next)

end Action

namespace Artifact

open Lang Evalbox.Action

/-- A method with no parameter but `self` and the given ones. -/
def method (n : Nat) (name : String) (params : List String) (body : List Stmt) : Stmt :=
  let s := onLine n
  .define s false name (.mk [] (("self" :: params).map fun p => .mk s p none) none [] [] none []) body [] none

/-- The program of a unit. -/
def program (a : Artifact) (name filename : String) : Program :=
  let (load, n) := statements 1 a.load
  let pass (n : Nat) : Stmt := .pass (onLine n)
  let classOf (body : List Stmt) : Stmt := .defineClass (onLine n) name [] [] body []
  let call (n : Nat) : Stmt :=
    let (body, last) := statements (n + 1) a.call
    method n "__call__" [] (body ++ [pass last])
  let body : List Stmt := match a.shape with
    | .noClass => []
    | .normal => [classOf [call (n + 1)]]
    | .badInit =>
      [classOf [method (n + 1) "__init__" [] [.raise (onLine (n + 1)) (some (exception (onLine (n + 1)) "ValueError" "init failed")) none],
        call (n + 2)]]
    | .needsArgs => [classOf [method (n + 1) "__init__" ["x"] [pass (n + 1)], call (n + 2)]]
    | .notCallable => [classOf [pass (n + 1)]]
  ⟨filename, load ++ body, 0, false⟩

end Artifact

end Evalbox
