import Evalbox.Exec.HostModules

/-!
# Calls

What it means to call a value: functions run their bodies, classes make instances, methods of the
language's own types are looked up by name.
-/

namespace Evalbox.M

/-- The classes of errors of the operating system by number. -/
def osErrorClasses : List (Int × String) := [
  (1, "PermissionError"), (2, "FileNotFoundError"), (3, "ProcessLookupError"), (4, "InterruptedError"),
  (10, "ChildProcessError"), (11, "BlockingIOError"), (13, "PermissionError"), (17, "FileExistsError"),
  (20, "NotADirectoryError"), (21, "IsADirectoryError"), (32, "BrokenPipeError"),
  (103, "ConnectionAbortedError"), (104, "ConnectionResetError"), (108, "BrokenPipeError"), (110, "TimeoutError"),
  (111, "ConnectionRefusedError"), (114, "BlockingIOError"), (115, "BlockingIOError")]

/-- What the arguments of an exception say about it: its class, its arguments and its attributes. -/
def exceptionParts (h : Heap) (cls : Ref) (args : List Value) : Ref × List Value × Names :=
  let below (c : String) : Bool := h.isSubclass cls (classRef c)
  if below "OSError" then
    match args with
    | n :: s :: rest =>
      if rest.length > 3 then (cls, args, [])
      else
        let cls := match n with
          | .int i => if cls = classRef "OSError" then ((osErrorClasses.lookup i).map classRef).getD cls else cls
          | _ => cls
        let file : Names := match rest with
          | .none :: _ | [] => []
          | f :: _ => [("filename", f)]
        (cls, [n, s], [("errno", n), ("strerror", s)] ++ file)
    | _ => (cls, args, [])
  else if below "SyntaxError" then
    match args with
    | [_, .tuple (file :: line :: _)] => (cls, args, [("filename", file), ("lineno", line)])
    | _ => (cls, args, [])
  else (cls, args, [])

/-- A new exception of a class. -/
def makeException (cls : Ref) (args : List Value) (kwargs : Names) : M Ref := do
  let h ← heap
  let below (c : String) : Bool := h.isSubclass cls (classRef c)
  let (cls, args, attrs) := exceptionParts h cls args
  let named := if below "ImportError" then ["name", "path"] else if below "AttributeError" then ["name", "obj"]
    else if below "NameError" then ["name"] else []
  let arity := if below "UnicodeDecodeError" || below "UnicodeEncodeError" then some 5
    else if below "UnicodeTranslateError" then some 4 else none
  if kwargs.any fun (k, _) => !named.contains k then
    typeError (h.className cls ++ "() takes no keyword arguments")
  else if arity.any (· ≠ args.length) then
    typeError ("function takes exactly " ++ toString (arity.getD 0) ++ " arguments (" ++ toString args.length ++ " given)")
  else newException cls args (attrs ++ kwargs)

/-- Make an instance of a class. -/
def instantiate (cls : Ref) (args : List Value) (kwargs : Names) : M Value := do
  let h ← heap
  let i := h.classInfo cls
  let init := h.classAttr cls "__init__"
  let setUp (v : Value) (f : Value) : M Value := do
    match ← valueOf (.apply f (v :: args) kwargs) with
    | .none => return v
    | w => typeError ("__init__() should return None, not '" ++ (← typeName w) ++ "'")
  if h.isSubclass cls (classRef "BaseException") then
    match init with
    | none => return .ref (← makeException cls args kwargs)
    | some f => do
      let r ← makeException cls args []
      setUp (.ref r) f
  else if i.name = "Thread" && cls < builtinClasses.length then
    let given ← takeArguments "Thread" ["group", "target", "name", "args", "kwargs", "daemon"] args kwargs
    let items ← match argumentAt given 3 with
      | some v => collectAll v
      | none => pure []
    let named ← match argumentAt given 4 with
      | some v => do pure ((← entriesFrom v).filterMap fun (k, w) => match k with
        | .text n => some (n, w)
        | _ => none)
      | none => pure []
    make (.thread ((argumentAt given 1).getD .none) items named false)
  else if cls < builtinClasses.length then construct i.name args kwargs
  else
    let start : M Value := do
      match h.classAttr cls "__new__" with
      | some f =>
        let f ← bindToClass cls f
        valueOf (.apply f (.ref cls :: args) kwargs)
      | none => make (.instanceOf cls [])
    match init with
    | some f => do
      let v ← start
      if h.isSubclass ((← heap).classOf v) cls then setUp v f else return v
    | none =>
      if (h.classAttr cls "__new__").isNone && !(args.isEmpty && kwargs.isEmpty) then
        typeError (i.name ++ "() takes no arguments")
      else start

/-- The exception that a value means when it is raised. -/
def exceptionOf (v : Value) : M Ref := do
  let bad : M Ref := typeError "exceptions must derive from BaseException"
  match v with
  | .ref r =>
    match ← obj r with
    | .exception _ => return r
    | .cls _ =>
      if (← heap).isSubclass r (classRef "BaseException") then
        match ← valueOf (.apply v [] []) with
        | .ref e => return e
        | _ => bad
      else bad
    | _ => bad
  | _ => bad

/-- Raise the stop by which an iterator says that it has no more items. -/
def stopWith {α : Type} (v : Value) : M α :=
  let args : List Value := match v with
    | .none => []
    | v => [v]
  raiseWith "StopIteration" args []

/-- Hand an exception to a generator. -/
def throwInto (r : Ref) (e : Ref) : M Value := do
  match ← wake r (.throw ⟨e, none, false⟩) with
  | .item v => return v
  | .ended v => stopWith v

/-- A method of a generator. -/
def generatorMethod (r : Ref) (name : String) (args : List Value) : M Value := do
  match name with
  | "send" | "__next__" =>
    match ← wake r (.send (args.headD .none)) with
    | .item v => return v
    | .ended v => stopWith v
  | "throw" => do throwInto r (← exceptionOf (args.headD .none))
  | _ =>
    match ← obj r with
    | .generator id .fresh n q t => do
      put r (.generator id .finished n q t)
      return .none
    | .generator _ .running .. => valueError "generator already executing"
    | .generator _ .suspended .. =>
      let e ← newException (classRef "GeneratorExit") [] []
      match ← attempt (wake r (.throw ⟨e, none, false⟩)) with
      | .ok (.item _) => raise "RuntimeError" "generator ignored GeneratorExit"
      | .ok (.ended _) => return .none
      | .error x =>
        if (← isKind x "GeneratorExit") || (← isKind x "StopIteration") then return .none else fail x
    | _ => return .none

/-- A method of a thread. A started thread runs to its end at once. -/
def threadMethod (r : Ref) (name : String) : M Value := do
  match ← obj r with
  | .thread target args kwargs started =>
    match name with
    | "start" =>
      if started then raise "RuntimeError" "threads can only be started once"
      else do
        put r (.thread target args kwargs true)
        let _ ← ask .enterThread
        let handling := (← heap).handling
        change fun h => { h with handling := [] }
        let res ← attempt (match target with
          | .none => return .none
          | f => valueOf (.apply f args kwargs) : M Value)
        change fun h => { h with handling }
        let _ ← ask .leaveThread
        match res with
        | .error e => if ← isKind e "WorkerCancelled" then fail e else return .none
        | .ok _ => return .none
    | "run" => valueOf (.apply target args kwargs)
    | "join" =>
      if started then return .none else raise "RuntimeError" "cannot join thread before it is started"
    | _ => return .bool false
  | _ => return .none

/-- A method that every object has. -/
def objectMethod (self : Value) (name : String) (args : List Value) (kwargs : Names) : M Value := do
  let a := args.headD .none
  match name with
  | "__init__" =>
    match self with
    | .ref r =>
      match ← obj r with
      | .exception e => do
        put r (.exception { e with args })
        return .none
      | _ =>
        if args.isEmpty && kwargs.isEmpty then return .none
        else typeError "object.__init__() takes exactly one argument (the instance to initialize)"
    | _ => return .none
  | "__repr__" =>
    match self with
    | .ref r => do
      match ← obj r with
      | .instanceOf c _ => return .text (← instanceText c)
      | _ => return .text (← objText r)
    | v => return .text (← shownTask v)
  | "__str__" =>
    match self with
    | .ref r =>
      match ← obj r with
      | .exception e => return .text (← exceptionText e)
      | _ => return .text (← shownTask self)
    | v => return .text (← textTask v)
  | "__eq__" => if self.sameKey a then return .bool true else return .notImplemented
  | "__ne__" => return .bool (!self.sameKey a)
  | "__hash__" => callBuiltin "hash" [self] []
  | "__len__" => return .int (← lengthOf self)
  | "__getitem__" => getItem self a
  | "__setitem__" => do
    setItem self a ((args[1]?).getD .none) []
    return .none
  | "__delitem__" => do
    dropItem self a
    return .none
  | "__contains__" => return .bool (← contains self a)
  | "__iter__" => iterOf self
  | "__next__" => advance [self]
  | "__call__" => valueOf (.apply self args kwargs)
  | "__format__" => return .text (← formatValue self "")
  | "__bool__" => return .bool (← truthOf self)
  | "__int__" => newInt [self] []
  | "__float__" => newFloat [self] []
  | "__abs__" => absolute self
  | "__neg__" => unaryOf .minus self
  | "__add__" => binary "+" .add self a
  | "__sub__" => binary "-" .sub self a
  | "__mul__" => binary "*" .mul self a
  | "__lt__" => compareOf .less self a
  | "__gt__" => compareOf .greater self a
  | "__setattr__" => do
    match self, a with
    | .ref r, .text n =>
      match ← obj r with
      | .instanceOf c attrs => put r (.instanceOf c (attrs.put n ((args[1]?).getD .none)))
      | _ => setAttr self n ((args[1]?).getD .none)
    | _, _ => pure ()
    return .none
  | "__delattr__" => do
    match self, a with
    | .ref r, .text n =>
      match ← obj r with
      | .instanceOf c attrs =>
        if (attrs.lookup n).isSome then put r (.instanceOf c (attrs.erase n)) else lacks self n
      | _ => dropAttr self n
    | _, _ => pure ()
    return .none
  | "__getattribute__" => do
    match a with
    | .text n => match ← plainAttr self n with
      | some v => return v
      | none => lacks self n
    | _ => return .none
  | "__dir__" => callBuiltin "dir" [self] []
  | "__sizeof__" => return .int 64
  | _ => return .none

/-- A method of the standard output. -/
def consoleMethod (name : String) (args : List Value) : M Value := do
  match name with
  | "write" =>
    match args with
    | [.text s] => do
      let _ ← ask (.write s.toList)
      return .int s.length
    | [v] => do typeError ("string argument expected, got '" ++ (← typeName v) ++ "'")
    | _ => typeError "ThreadRoutedStream.write() missing 1 required positional argument: 'text'"
  | "isatty" =>
    match ← ask .isTerminal with
    | .yes b => return .bool b
    | _ => return .bool false
  | "writable" => return .bool true
  | "readable" | "seekable" => return .bool false
  | _ => return .none

/-- A method of the stream for errors. -/
def errorsMethod (name : String) (args : List Value) : M Value := do
  match name, args with
  | "write", [.text s] => return .int s.length
  | "write", v :: _ => typeError ("write() argument must be str, not " ++ (← typeName v))
  | "writable", _ => return .bool true
  | "readable", _ | "seekable", _ | "isatty", _ => return .bool false
  | "fileno", _ => return .int 2
  | "read", _ | "readline", _ | "readlines", _ => unsupported "not readable"
  | _, _ => return .none

/-- A method of an exception. -/
def exceptionMethod (r : Ref) (e : ExceptionInfo) (name : String) (args : List Value) : M Value := do
  if name = "with_traceback" then return .ref r
  else
    let notes ← match e.attrs.lookup "__notes__" with
      | some v => collectAll v
      | none => pure []
    let v ← make (.list (notes ++ args).toArray)
    put r (.exception { e with attrs := e.attrs.put "__notes__" v })
    return .none

/-- A method that a type of the language has of its own. -/
def typeMethod (self : Value) (name : String) (args : List Value) (kwargs : Names) : M Value := do
  match self with
  | .text s => textMethod s.toList name args kwargs
  | .bytes bs => bytesMethod bs name args kwargs
  | .tuple xs => sequenceMethod "tuple" xs name args
  | .range a b c => sequenceMethod "range" ((rangeItems a b c).map .int) name args
  | .bool _ | .int _ | .float _ | .complex .. => numberMethod self name args kwargs
  | .ref r =>
    match ← obj r with
    | .list xs => listMethod r xs name args kwargs
    | .dict es => dictMethod r es name args kwargs
    | .names ns => dictMethod r (Obj.names ns).entries name args kwargs
    | .set frozen xs => setMethod r frozen xs name args
    | .file f => fileMethod r f name args
    | .generator .. => generatorMethod r name args
    | .thread .. => threadMethod r name
    | .console => consoleMethod name args
    | .errors => errorsMethod name args
    | .property get set delete doc =>
      let f := args.headD .none
      match name with
      | "setter" => make (.property get f delete doc)
      | "deleter" => make (.property get set f doc)
      | _ => make (.property f set delete doc)
    | .exception e => exceptionMethod r e name args
    | _ => objectMethod self name args kwargs
  | _ => objectMethod self name args kwargs

/-- Call a method that belongs to a type itself. -/
def callMaker (type name : String) (args : List Value) (kwargs : Names) : M Value := do
  checkArity ((methodArity? type name).getD .free) (type ++ "." ++ name) args kwargs
  match type, name with
  | "dict", _ => dictMethod 0 [] name args kwargs
  | "str", _ => replacementTable args
  | "bytes", _ => bytesMethod [] name args kwargs
  | _, _ => intFromBytes args kwargs

/-- Call a method of the language's own types. -/
def callMethod (self : Value) (name : String) (args : List Value) (kwargs : Names) : M Value := do
  let common : M Value := objectMethod self name args kwargs
  let h ← heap
  match h.methodHome? (h.classOf self) name with
  | none => common
  | some home =>
    match methodArity? home name with
    | some arity =>
      if isMaker home name then callMaker home name args kwargs
      else
        checkArity arity (home ++ "." ++ name) args kwargs
        typeMethod self name args kwargs
    | none =>
      match self, name with
      | .ref r, "__enter__" | .ref r, "__exit__" =>
        match h.get r with
        | .file f => fileMethod r f name args
        | _ => common
      | .ref r, "__next__" =>
        match h.get r with
        | .generator .. => generatorMethod r name []
        | _ => common
      | _, _ => common

/-- The modules of the host whose functions are called by a dotted name. -/
def hostOf (name : String) : Option (String × String) :=
  match name.splitOn "." with
  | [m, f] => if (typeMethods.lookup m).isSome || operatorMethods.contains f then none else some (m, f)
  | _ => none

/-- Call a method of a type of the language with the value that it is asked of as first argument. -/
def callUnbound (type name : String) (args : List Value) (kwargs : Names) : M Value := do
  match name, args with
  | "__new__", .ref cls :: rest =>
    if cls < builtinClasses.length then instantiate cls rest kwargs else make (.instanceOf cls [])
  | _, [] => typeError ("unbound method " ++ type ++ "." ++ name ++ "() needs an argument")
  | _, self :: rest => do
    let h ← heap
    if (methodArity? type name).isSome && !h.isSubclass (h.classOf self) (classRef type) then
      typeError ("descriptor '" ++ name ++ "' for '" ++ type ++ "' objects doesn't apply to a '" ++
        h.typeName self ++ "' object")
    else callMethod self name rest kwargs

/-- Call a function of the language or of the host. -/
def callNative (name : String) (args : List Value) (kwargs : Names) : M Value := do
  match hostOf name with
  | some (m, f) => callHost m f args kwargs
  | none =>
    match name.splitOn "." with
    | [type, f] => if isMaker type f then callMaker type f args kwargs else callUnbound type f args kwargs
    | _ => callBuiltin name args kwargs

def notCallable {α : Type} (v : Value) : M α := do
  typeError ("'" ++ (← typeName v) ++ "' object is not callable")

/-- Import by a call of the import function. -/
def callImporter (g : ImportGuard) (args : List Value) (kwargs : Names) : M Value := do
  let given ← takeArguments "__import__" ["name", "globals", "locals", "fromlist", "level"] args kwargs
  match argumentAt given 0 with
  | some (.text name) =>
    let package ← match argumentAt given 1 with
      | some v => do
        match ← attempt (getItem v (.text "__package__")) with
        | .ok (.text p) => pure (some p)
        | _ => pure none
      | none => pure none
    let names ← match argumentAt given 3 with
      | none | some .none => pure none
      | some v => do
        let xs ← collectAll v
        pure (if xs.isEmpty then none else some (xs.filterMap fun x => match x with
          | .text s => some s
          | _ => none))
    let level ← match argumentAt given 4 with
      | some v => needInt v
      | none => pure 0
    valueOf (.importName g name package names level)
  | some v => do typeError ("__import__() argument 1 must be str, not " ++ (← typeName v))
  | none => typeError "__import__() missing 1 required positional argument: 'name'"

/-- Call a value. -/
def applyValue (f : Value) (args : List Value) (kwargs : Names) : M Value := do
  match f with
  | .native n => callNative n args kwargs
  | .method self n => callMethod self n args kwargs
  | .ref r =>
    match ← obj r with
    | .function fn => callFunction fn args kwargs
    | .bound g self => valueOf (.apply g (self :: args) kwargs)
    | .cls _ => instantiate r args kwargs
    | .importer g => callImporter g args kwargs
    | .alias origin _ => valueOf (.apply origin args kwargs)
    | .static g => valueOf (.apply g args kwargs)
    | _ =>
      match ← userMethod f "__call__" with
      | some m => do
        let m ← bindTo f ((← heap).classOf f) m
        valueOf (.apply m args kwargs)
      | none => notCallable f
  | _ => notCallable f

end Evalbox.M
