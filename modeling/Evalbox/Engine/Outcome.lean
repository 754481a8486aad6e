import Evalbox.Datum.Basic
import Evalbox.Diagnostics.Basic
import Evalbox.Failure
import Evalbox.Outcome.Attribution

/-!
# Outcomes

What an evaluation comes to. A failure of the snippet is reported by the exception to which it is
attributed; a failure of the engine by its cause.
-/

namespace Evalbox

/-- A value that a snippet returned: what is shown of it, the name of its class, the classes of the
language that it belongs to, and its text. -/
structure Produced where
  datum : Datum
  typeName : String
  classes : List String
  text : String
  deriving Inhabited

/-- An exception with those behind it. -/
structure Thrown where
  first : Nat
  raisings : Raisings Nat
  faults : List (Nat × Fault)

instance : Inhabited Thrown := ⟨⟨0, ⟨[]⟩, []⟩⟩

namespace Thrown

/-- An exception that nothing else is known about. -/
def ofFault (f : Fault) : Thrown := ⟨0, ⟨[]⟩, [(0, f)]⟩

/-- An exception as a fault. -/
def faultOf (t : Thrown) (e : Nat) : Fault := (t.faults.lookup e).getD ⟨"BaseException", ""⟩

def fault (t : Thrown) : Fault := t.faultOf t.first

end Thrown

/-- A failure of a snippet: what is reported, and its line in the snippet if it has one. -/
structure Failure where
  fault : Fault
  line : Option Int
  deriving DecidableEq, Repr, Inhabited

/-- The failure to which an exception is attributed. -/
def Failure.ofThrown (t : Thrown) (u : SnippetUnit) : Failure :=
  let a := classify t.raisings u t.first
  ⟨t.faultOf a.exception, a.line⟩

/-- What an evaluation comes to. -/
inductive Outcome where
  | success (diagnostics : Report) (value : Produced) (output : String)
  | runtimeFailure (diagnostics : Report) (failure : Option Failure)
  | compileFailure (diagnostics : Report)
  | internalFailure (cause : Fault)
  | timeout
  deriving Inhabited

namespace Outcome

def kindName : Outcome → String
  | success .. => "success"
  | runtimeFailure .. => "runtime_failure"
  | compileFailure .. => "compile_failure"
  | internalFailure _ => "internal_failure"
  | timeout => "timeout"

def isSuccess : Outcome → Bool
  | success .. => true
  | _ => false

/-- The diagnostics that came with an outcome. -/
def diagnostics : Outcome → Report
  | success ds .. | runtimeFailure ds _ | compileFailure ds => ds
  | _ => []

/-- The errors that kept a snippet from being run. -/
def errors (o : Outcome) : List Diagnostic := o.diagnostics.errors

end Outcome

end Evalbox
