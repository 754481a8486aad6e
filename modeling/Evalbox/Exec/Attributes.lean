import Evalbox.Exec.Format
import Evalbox.Exec.Methods
import Evalbox.Exec.Variables

/-!
# Attributes

How an attribute of a value is found, set and dropped. Instances look among their own attributes and
then in their class; what a class holds is bound to the instance on the way. The methods of the
language's own types are known by name.
-/

namespace Evalbox

namespace M

def noAttribute {α : Type} (v : Value) (name text : String) : M α :=
  raiseWith "AttributeError" [.text (text ++ " has no attribute '" ++ name ++ "'")]
    [("name", .text name), ("obj", v)]

/-- Say that a value lacks an attribute. -/
def lacks {α : Type} (v : Value) (name : String) : M α := do
  let h ← heap
  let text ← match v with
    | .ref r => match h.get r with
      | .cls i => pure ("type object '" ++ i.name ++ "'")
      | .module n _ => pure ("module '" ++ n ++ "'")
      | _ => pure ("'" ++ h.typeName v ++ "' object")
    | _ => pure ("'" ++ h.typeName v ++ "' object")
  noAttribute v name text

/-- What an attribute of a class gives on an instance. -/
def bindTo (self : Value) (cls : Ref) (found : Value) : M Value := do
  match found with
  | .ref r =>
    match ← obj r with
    | .function _ => make (.bound found self)
    | .ofClass f => make (.bound f (.ref cls))
    | .static f => return f
    | .property get _ _ _ =>
      match get with
      | .none => raise "AttributeError" ("property of '" ++ (← heap).className cls ++ "' object has no getter")
      | f => valueOf (.apply f [self] [])
    | _ => return found
  | _ => return found

/-- What an attribute of a class gives on the class. -/
def bindToClass (cls : Ref) (found : Value) : M Value := do
  match found with
  | .ref r =>
    match ← obj r with
    | .ofClass f => make (.bound f (.ref cls))
    | .static f => return f
    | _ => return found
  | _ => return found

/-- A dict of variables. -/
def dictOfNames (ns : Names) : M Value := make (.dict (ns.map fun (n, v) => (.text n, v)))

/-- The last part of the name of a function of the language. -/
def shortName (n : String) : String := ((n.splitOn ".").getLast?).getD n

/-- Attributes that values have by their type, but for methods. -/
def dataAttr (v : Value) (name : String) : M (Option Value) := do
  match v, name with
  | .int _, "real" | .int _, "numerator" => return some v
  | .int _, "imag" => return some (.int 0)
  | .int _, "denominator" => return some (.int 1)
  | .float _, "real" => return some v
  | .float _, "imag" => return some (.float 0)
  | .complex a _, "real" => return some (.float a)
  | .complex _ b, "imag" => return some (.float b)
  | .range a _ _, "start" => return some (.int a)
  | .range _ b _, "stop" => return some (.int b)
  | .range _ _ c, "step" => return some (.int c)
  | .slice a _ _, "start" => return some a
  | .slice _ b _, "stop" => return some b
  | .slice _ _ c, "step" => return some c
  | .native n, "__name__" | .native n, "__qualname__" => return some (.text (shortName n))
  | .native _, "__module__" => return some (.text "builtins")
  | .method _ n, "__name__" | .method _ n, "__qualname__" => return some (.text n)
  | .method s _, "__self__" => return some s
  | _, _ => return none

/-- Attributes of functions. -/
def functionAttr (r : Ref) (f : Function) (name : String) : M (Option Value) := do
  match f.attrs.lookup name with
  | some v => return some v
  | none =>
    match name with
    | "__name__" => return some (.text f.name)
    | "__qualname__" => return some (.text f.qualname)
    | "__doc__" => return some f.doc
    | "__module__" => return some f.module
    | "__annotations__" =>
      match f.hints with
      | .none => do
        let d ← make (.dict [])
        put r (.function { f with hints := d })
        return some d
      | d => return some d
    | "__defaults__" =>
      let ds := f.params.filterMap fun p => if p.kind = .keywordOnly then none else p.default
      return some (if ds.isEmpty then .none else .tuple ds)
    | "__kwdefaults__" =>
      let ds := f.params.filterMap fun p =>
        if p.kind = .keywordOnly then p.default.map fun d => (p.name, d) else none
      if ds.isEmpty then return some .none else return some (← dictOfNames ds)
    | "__dict__" => return some (← dictOfNames f.attrs)
    | "__globals__" => return some (.ref f.env.globals)
    | _ => return none

/-- Attributes of exceptions. -/
def exceptionAttr (e : ExceptionInfo) (name : String) : M (Option Value) := do
  let link (r : Option Ref) : Value := (r.map Value.ref).getD .none
  match e.attrs.lookup name with
  | some v => return some v
  | none =>
    let h ← heap
    let below (c : String) : Bool := h.isSubclass e.cls (classRef c)
    match name with
    | "args" => return some (.tuple e.args)
    | "__cause__" => return some (link e.cause)
    | "__context__" => return some (link e.context)
    | "__suppress_context__" => return some (.bool e.suppressed)
    | "__traceback__" => return some .none
    | "__dict__" => return some (← dictOfNames e.attrs)
    | "code" =>
      if below "SystemExit" then
        return some (match e.args with
          | [] => .none
          | [a] => a
          | args => .tuple args)
      else return none
    | "value" => if below "StopIteration" then return some (e.args.headD .none) else return none
    | "msg" => if below "ImportError" || below "SyntaxError" then return some (e.args.headD .none) else return none
    | "name" =>
      if below "ImportError" || below "NameError" || below "AttributeError" then return some .none else return none
    | "path" => if below "ImportError" then return some .none else return none
    | "encoding" | "object" | "start" | "end" | "reason" =>
      if below "UnicodeDecodeError" || below "UnicodeEncodeError" then
        return e.args[["encoding", "object", "start", "end", "reason"].idxOf name]?
      else return none
    | "message" | "exceptions" =>
      if below "BaseExceptionGroup" || below "ExceptionGroup" then return e.args[["message", "exceptions"].idxOf name]? else return none
    | "errno" | "strerror" | "filename" => if below "OSError" then return some .none else return none
    | _ => return none

/-- Attributes of classes, but for what the class and those above it hold. -/
def classDataAttr (r : Ref) (i : ClassInfo) (name : String) : M (Option Value) := do
  match name with
  | "__name__" => return some (.text i.name)
  | "__qualname__" => return some (.text i.qualname)
  | "__module__" => return some (.text i.module)
  | "__bases__" => return some (.tuple (i.bases.map .ref))
  | "__mro__" => return some (.tuple (i.lineage.map .ref))
  | "__dict__" => return some (← dictOfNames i.attrs)
  | "__doc__" => return some ((i.attrs.lookup "__doc__").getD .none)
  | "__base__" => return some ((i.bases.head?.map Value.ref).getD .none)
  | "__annotations__" =>
    match i.attrs.lookup name with
    | some v => return some v
    | none => return some (← make (.dict []))
  | _ =>
    match (← heap).methodHome? r name with
    | some t => return some (.native (t ++ "." ++ name))
    | none => return none

/-- Attributes of an object that its class knows nothing about. -/
def ownAttr (v : Value) (r : Ref) (name : String) : M (Option Value) := do
  match ← obj r with
  | .instanceOf _ attrs =>
    match attrs.lookup name with
    | some w => return some w
    | none => if name = "__dict__" then return some (← dictOfNames attrs) else return none
  | .exception e => exceptionAttr e name
  | .function f => functionAttr r f name
  | .bound f self =>
    match name with
    | "__self__" => return some self
    | "__func__" => return some f
    | _ => match f with
      | .ref g => match ← obj g with
        | .function fn => functionAttr g fn name
        | _ => return none
      | _ => return none
  | .module n vars =>
    match (← namesOf vars).lookup name with
    | some w => return some w
    | none =>
      match name with
      | "__name__" => return some (.text n)
      | "__dict__" => return some (.ref vars)
      | "__doc__" => return some .none
      | _ => return none
  | .generator _ state n q _ =>
    match name with
    | "__name__" => return some (.text n)
    | "__qualname__" => return some (.text q)
    | "gi_running" => return some (.bool (state = .running))
    | _ => return none
  | .file f =>
    match name with
    | "name" => return some (.text f.path)
    | "mode" => return some (.text f.mode)
    | "closed" => return some (.bool f.closed)
    | "encoding" => return if f.binary then none else some (.text "UTF-8")
    | _ => return none
  | .console =>
    match name with
    | "encoding" =>
      match ← ask .encoding with
      | .text s => return some (.text s)
      | _ => return some .none
    | "closed" => return some (.bool false)
    | _ => return none
  | .errors =>
    match name with
    | "name" => return some (.text "<stderr>")
    | "mode" => return some (.text "w")
    | "encoding" => return some (.text "utf-8")
    | "closed" => return some (.bool false)
    | _ => return none
  | .thread .. =>
    match name with
    | "name" => return some (.text "Thread-1")
    | "daemon" => return some (.bool true)
    | _ => return none
  | .code f _ => return if name = "co_filename" then some (.text f) else if name = "co_name" then some (.text "<module>") else none
  | .property get set delete doc =>
    match name with
    | "fget" => return some get
    | "fset" => return some set
    | "fdel" => return some delete
    | "__doc__" => return some doc
    | _ => return none
  | .static f | .ofClass f => return if name = "__func__" then some f else none
  | .importer g =>
    return if name = "__name__" then
      some (.text (match g with
        | .plain => "import_module"
        | .checked _ => "_safe_import"))
    else none
  | .alias origin args =>
    match name with
    | "__origin__" => return some origin
    | "__args__" => return some (.tuple args)
    | _ => return none
  | _ => let _ := v; return none

/-- Whether an attribute of a class decides over an attribute of the instance. -/
def decides (v : Value) : M Bool := do
  match v with
  | .ref r => match ← obj r with
    | .property .. => return true
    | _ => return false
  | _ => return false

/-- An attribute of a value, by the rules of its type. -/
def plainAttr (v : Value) (name : String) : M (Option Value) := do
  let h ← heap
  let cls := h.classOf v
  let methodOf (self : Value) (c : Ref) : Option Value :=
    (h.methodHome? c name).map fun _ => Value.method self name
  if name = "__class__" then return some (.ref cls)
  else match v with
    | .ref r =>
      match h.get r with
      | .cls i =>
        match h.classAttr r name with
        | some found => return some (← bindToClass r found)
        | none => classDataAttr r i name
      | .super start self selfClass =>
        let above := ((h.classInfo selfClass).lineage.dropWhile (· ≠ start)).drop 1
        match above.findSome? fun c => (h.classInfo c).attrs.lookup name with
        | some found => return some (← bindTo self selfClass found)
        | none => return above.findSome? (methodOf self)
      | _ =>
        match h.classAttr cls name with
        | some found =>
          if ← decides found then return some (← bindTo v cls found)
          else match ← ownAttr v r name with
            | some w => return some w
            | none => return some (← bindTo v cls found)
        | none =>
          match ← ownAttr v r name with
          | some w => return some w
          | none =>
            match methodOf v cls with
            | some m => return some m
            | none =>
              match name with
              | "__doc__" => return some .none
              | "__module__" => return some (.text (h.classInfo cls).module)
              | _ => return none
    | _ =>
      match ← dataAttr v name with
      | some w => return some w
      | none =>
        match methodOf v cls with
        | some m => return some m
        | none => return if name = "__doc__" then some (.text "") else none

/-- An attribute of a value. -/
def getAttr (v : Value) (name : String) : M Value := do
  match ← plainAttr v name with
  | some w => return w
  | none =>
    match ← callUser v "__getattr__" [.text name] with
    | some w => return w
    | none => lacks v name

/-- An attribute of a value, if it has it. -/
def getAttr? (v : Value) (name : String) : M (Option Value) := do
  match ← attempt (valueOf (.getAttr v name)) with
  | .ok w => return some w
  | .error e =>
    let h ← heap
    if h.isSubclass (h.exceptionInfo e.exc).cls (classRef "AttributeError") then return none else fail e

/-- Whether the classes of an instance leave room for an attribute: each of them may name all that its
instances have. -/
def hasRoom (h : Heap) (cls : Ref) (name : String) : Bool :=
  let own := ((h.classInfo cls).lineage.filter (builtinClasses.length ≤ ·)).map fun c => (h.classInfo c).attrs.lookup "__slots__"
  let names (v : Value) : List String :=
    let text (v : Value) : Option String := match v with
      | .text s => some s
      | _ => none
    match v with
    | .text s => [s]
    | .tuple xs => xs.filterMap text
    | .ref r => match h.get r with
      | .list xs => xs.toList.filterMap text
      | o => (o.entries.map (·.1)).filterMap text
    | _ => []
  own.any fun slots => match slots with
    | none => true
    | some v => (names v).any fun n => n = name || n = "__dict__"

/-- Set an attribute. -/
def setAttr (v : Value) (name : String) (w : Value) : M Unit := do
  let h ← heap
  match v with
  | .ref r =>
    match h.get r with
    | .instanceOf c attrs =>
      match ← callUser v "__setattr__" [.text name, w] with
      | some _ => pure ()
      | none =>
        let simple : M Unit :=
          if hasRoom h c name then put r (.instanceOf c (attrs.put name w)) else lacks v name
        match h.classAttr c name with
        | some (.ref p) =>
          match h.get p with
          | .property _ .none _ _ =>
            raise "AttributeError" ("property '" ++ name ++ "' of '" ++ h.className c ++ "' object has no setter")
          | .property _ set _ _ => do
            let _ ← valueOf (.apply set [v, w] [])
          | _ => simple
        | _ => simple
    | .cls i =>
      if r < builtinClasses.length then
        typeError ("cannot set '" ++ name ++ "' attribute of immutable type '" ++ i.name ++ "'")
      else
        let renamed : ClassInfo := match name, w with
          | "__name__", .text n => { i with name := n }
          | "__qualname__", .text n => { i with qualname := n }
          | "__module__", .text n => { i with module := n }
          | _, _ => { i with attrs := i.attrs.put name w }
        put r (.cls renamed)
    | .function f =>
      let changed : Function := match name, w with
        | "__name__", .text n => { f with name := n }
        | "__qualname__", .text n => { f with qualname := n }
        | "__doc__", w => { f with doc := w }
        | "__annotations__", w => { f with hints := w }
        | _, _ => { f with attrs := f.attrs.put name w }
      put r (.function changed)
    | .module _ vars => setName vars name w
    | .exception e =>
      let link : Option Ref := match w with
        | .ref c => some c
        | _ => none
      match name with
      | "__cause__" => put r (.exception { e with cause := link, suppressed := true })
      | "__context__" => put r (.exception { e with context := link })
      | "__suppress_context__" => put r (.exception { e with suppressed := ← truthOf w })
      | "args" => match w with
        | .tuple xs => put r (.exception { e with args := xs })
        | _ => pure ()
      | _ => put r (.exception { e with attrs := e.attrs.put name w })
    | _ => lacks v name
  | _ =>
    match h.methodHome? (h.classOf v) name with
    | some _ => raise "AttributeError" ("'" ++ h.typeName v ++ "' object attribute '" ++ name ++ "' is read-only")
    | none => match ← dataAttr v name with
      | some _ => raise "AttributeError" ("attribute '" ++ name ++ "' of '" ++ h.typeName v ++ "' objects is not writable")
      | none => lacks v name

/-- Drop an attribute. -/
def dropAttr (v : Value) (name : String) : M Unit := do
  let h ← heap
  match v with
  | .ref r =>
    match h.get r with
    | .instanceOf c attrs =>
      match ← callUser v "__delattr__" [.text name] with
      | some _ => pure ()
      | none => if (attrs.lookup name).isSome then put r (.instanceOf c (attrs.erase name)) else lacks v name
    | .cls i => if (i.attrs.lookup name).isSome then put r (.cls { i with attrs := i.attrs.erase name }) else lacks v name
    | .function f => if (f.attrs.lookup name).isSome then put r (.function { f with attrs := f.attrs.erase name }) else lacks v name
    | .module _ vars => if ((← namesOf vars).lookup name).isSome then eraseName vars name else lacks v name
    | .exception e => if (e.attrs.lookup name).isSome then put r (.exception { e with attrs := e.attrs.erase name }) else lacks v name
    | _ => lacks v name
  | _ => lacks v name

end M

end Evalbox
