import Evalbox.Text.Quoted

/-!
# Faults

A fault is an error as its observer sees it: the class it belongs to, named as the snippet language
names it, and its text. The classes of errors that this library raises itself are listed as
constructors of `Fault`; faults of snippets may have any class.
-/

namespace Evalbox

/-- An error with its class and text. -/
structure Fault where
  kind : String
  text : String
  deriving DecidableEq, Repr, Inhabited

namespace Fault

def value (text : String) : Fault := ⟨"ValueError", text⟩
def type (text : String) : Fault := ⟨"TypeError", text⟩
def overflow (text : String) : Fault := ⟨"OverflowError", text⟩
def lookup (text : String) : Fault := ⟨"LookupError", text⟩
def missingImport (text : String) : Fault := ⟨"ImportError", text⟩
def missingModule (text : String) : Fault := ⟨"ModuleNotFoundError", text⟩
def policy (text : String) : Fault := ⟨"PolicyViolation", text⟩
def resultType (text : String) : Fault := ⟨"ResultTypeError", text⟩
def decoding (text : String) : Fault := ⟨"UnicodeDecodeError", text⟩
def timeout : Fault := ⟨"TimeoutError", ""⟩

/-- The fault by which an expired worker is stopped. -/
def cancelled : Fault := ⟨"WorkerCancelled", ""⟩

/-- The fault of an exception of a class that was made of one text. The text of a missing key is
quoted. -/
def ofText (kind text : String) : Fault := ⟨kind, if kind = "KeyError" then Text.quote text else text⟩

/-- Whether a fault is the one that stops a worker. -/
def isCancellation (f : Fault) : Bool := f.kind = "WorkerCancelled"

end Fault

end Evalbox
