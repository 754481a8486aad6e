import Evalbox.Exec.Act

/-!
# Classes of values and raised exceptions

The class of every value, and how exceptions of the language come about. An exception that is raised
while another one is handled remembers it as its context.
-/

namespace Evalbox

/-- The entries of a dict or a namespace. -/
def Obj.entries : Obj → List (Value × Value)
  | .dict es => es
  | .names ns => ns.map fun (n, v) => (.text n, v)
  | _ => []

/-- What can be gone through in a set, a dict or a namespace: its items or its keys. -/
def Obj.members : Obj → List Value
  | .set _ xs => Value.listed xs
  | o => o.entries.map (·.1)

/-- How many members there are. -/
def Obj.memberCount : Obj → Nat
  | .dict es => es.length
  | .names ns => ns.length
  | .set _ xs => xs.length
  | _ => 0

/-- Whether something is a member. -/
def Obj.hasMember (key : Value) : Obj → Bool
  | .dict es => es.any (·.1.sameKey key)
  | .set _ xs => xs.any (·.sameKey key)
  | o => o.members.any (·.sameKey key)

/-- What a view shows of the entries of its dict. -/
def viewItems (type : String) (es : List (Value × Value)) : List Value :=
  if type = "dict_values" then es.map (·.2)
  else if type = "dict_items" then es.map fun (k, v) => .tuple [k, v]
  else es.map (·.1)

namespace Heap

def get (h : Heap) (r : Ref) : Obj := h.objs[r]?.getD .plain

/-- What is known about a class. -/
def classInfo (h : Heap) (cls : Ref) : ClassInfo :=
  match h.get cls with
  | .cls info => info
  | _ => ⟨"object", "object", "builtins", [], [], []⟩

/-- The class of an object. -/
def classOfObj : Obj → Ref
  | .list _ => classRef "list"
  | .dict _ => classRef "dict"
  | .set frozen _ => classRef (if frozen then "frozenset" else "set")
  | .names _ => classRef "dict"
  | .function _ => classRef "function"
  | .bound .. => classRef "method"
  | .cls _ => classRef "type"
  | .instanceOf c _ => c
  | .exception e => e.cls
  | .module .. => classRef "module"
  | .iterator t _ => classRef t
  | .generator _ _ _ _ t => classRef t
  | .importer .plain => classRef "method"
  | .importer _ => classRef "function"
  | .code .. => classRef "code"
  | .file f => classRef (if !f.binary then "TextIOWrapper"
      else if f.readable && f.writable then "BufferedRandom"
      else if f.writable then "BufferedWriter" else "BufferedReader")
  | .property .. => classRef "property"
  | .static _ => classRef "staticmethod"
  | .ofClass _ => classRef "classmethod"
  | .super .. => classRef "super"
  | .thread .. => classRef "Thread"
  | .console => classRef "ThreadRoutedStream"
  | .errors => classRef "TextIOWrapper"
  | .alias .. => classRef "GenericAlias"
  | .view t _ => classRef t
  | .plain => classRef "object"

/-- The class of a value. -/
def classOf (h : Heap) : Value → Ref
  | .none => classRef "NoneType"
  | .bool _ => classRef "bool"
  | .int _ => classRef "int"
  | .float _ => classRef "float"
  | .complex .. => classRef "complex"
  | .text _ => classRef "str"
  | .bytes _ => classRef "bytes"
  | .ellipsis => classRef "ellipsis"
  | .notImplemented => classRef "NotImplementedType"
  | .tuple _ => classRef "tuple"
  | .range .. => classRef "range"
  | .slice .. => classRef "slice"
  | .native _ | .method .. => classRef "builtin_function_or_method"
  | .ref r => classOfObj (h.get r)

def className (h : Heap) (cls : Ref) : String := (h.classInfo cls).name

/-- The name of a value's class. -/
def typeName (h : Heap) (v : Value) : String := h.className (h.classOf v)

/-- Whether a class is another one, or below it. -/
def isSubclass (h : Heap) (cls base : Ref) : Bool := (h.classInfo cls).lineage.contains base

/-- Whether a value belongs to a class of the language. -/
def isA (h : Heap) (v : Value) (cls : String) : Bool := h.isSubclass (h.classOf v) (classRef cls)

/-- What is known about an exception. -/
def exceptionInfo (h : Heap) (r : Ref) : ExceptionInfo :=
  match h.get r with
  | .exception e => e
  | _ => default

/-- Change what is known about an exception. -/
def modifyException (h : Heap) (r : Ref) (f : ExceptionInfo → ExceptionInfo) : Heap :=
  match h.get r with
  | .exception e => { h with objs := h.objs.setIfInBounds r (.exception (f e)) }
  | _ => h

/-- Note a frame that an exception leaves. -/
def recordFrame (h : Heap) (r : Ref) (file : String) (line : Nat) : Heap :=
  h.modifyException r fun e => { e with frames := (file, (line : Int)) :: e.frames }

end Heap

namespace M

variable {α : Type}

def typeName (v : Value) : M String := do return (← heap).typeName v

/-- Raise an exception object, which remembers the exception that is being handled. -/
def raiseRef (r : Ref) : M α := fun h =>
  let h := match h.handling with
    | c :: _ => if c = r then h else h.modifyException r fun e => { e with context := some c }
    | [] => h
  .done h (.error ⟨r, none, false⟩)

/-- A new exception of a class. -/
def newException (cls : Ref) (args : List Value) (attrs : Names) : M Ref :=
  alloc (.exception ⟨cls, args, none, none, false, [], attrs⟩)

/-- Raise a new exception of a class of the language. -/
def raiseWith (cls : String) (args : List Value) (attrs : Names) : M α := do
  raiseRef (← newException (classRef cls) args attrs)

/-- Raise a new exception with a text. -/
def raise (cls text : String) : M α := raiseWith cls [.text text] []

def typeError (text : String) : M α := raise "TypeError" text
def valueError (text : String) : M α := raise "ValueError" text

/-- Raise an error of the operating system. -/
def osError (cls : String) (number : Int) (text : String) (path : Option Value) : M α :=
  raiseWith cls [.int number, .text text]
    ([("errno", .int number), ("strerror", .text text)] ++ (path.map fun p => ("filename", p)).toList)

/-- Raise a fault as an exception. -/
def raiseFault (f : Fault) : M α := raise f.kind f.text

/-- Have an operation announced; it fails if a policy rejects it. -/
def audit (name : String) (args : List Datum) : M Unit := do
  match ← ask (.audit ⟨name, args⟩) with
  | .fault f => raiseFault f
  | _ => pure ()

/-- Do work while an exception is being handled. -/
def handlingOf (r : Ref) (m : M α) : M α := fun h =>
  let before := h.handling
  (m { h with handling := r :: before }).bind fun h res => .done { h with handling := before } res

end M

end Evalbox
