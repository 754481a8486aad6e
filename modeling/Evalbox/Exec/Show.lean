import Evalbox.Exec.Raise

/-!
# Values as text

`showing` makes the text by which a value is shown, and `textOf` the plain text, which differs for
texts and exceptions. Values inside a container are shown by tasks of their own, so that methods of a
snippet's classes can take part. A container inside itself is shown by dots.
-/

namespace Evalbox

namespace Heap

/-- Search a class and those above it for an attribute. -/
def classAttr (h : Heap) (cls : Ref) (name : String) : Option Value :=
  (h.classInfo cls).lineage.findSome? fun c => (h.classInfo c).attrs.lookup name

/-- Class and module of an object in its text. -/
def fullName (h : Heap) (cls : Ref) : String :=
  let i := h.classInfo cls
  if i.module = "builtins" then i.qualname else i.module ++ "." ++ i.qualname

end Heap

namespace M

/-- Where objects are said to be. -/
def address : String := "0x7f0000000000"

/-- A method that a snippet's class gives to its instances. -/
def userMethod (v : Value) (name : String) : M (Option Value) := do
  let h ← heap
  return h.classAttr (h.classOf v) name

/-- Call a method of a snippet's class, if the value has it. -/
def callUser (v : Value) (name : String) (args : List Value) : M (Option Value) := do
  match ← userMethod v name with
  | some f => return some (← valueOf (.apply f (v :: args) []))
  | Option.none => return Option.none

/-- The text of an integer, which may not have too many digits. -/
def intText (n : Int) : M String := do
  if n.natAbs.log2 > 14000 && (Number.digitsOf n.natAbs).length > Number.digitLimit then
    valueError ("Exceeds the limit (" ++ toString Number.digitLimit ++
      " digits) for integer string conversion; use sys.set_int_max_str_digits() to increase the limit")
  else return toString n

/-- A real and an imaginary part. The real one is left out if it is zero. -/
def complexText (re im : Float) : String :=
  let part (x : Float) : String :=
    let t := Number.floatText x
    if t.endsWith ".0" then String.ofList (t.toList.take (t.length - 2)) else t
  if re == 0 && (1 / re) > 0 then part im ++ "j"
  else
    let sign := if (part im).startsWith "-" then "" else "+"
    "(" ++ part re ++ sign ++ part im ++ "j)"

/-- The text of a value inside another one. -/
def shownTask (v : Value) : M String := do
  match ← valueOf (.show v false) with
  | .text s => return s
  | _ => return ""

def shownList : List Value → M (List String)
  | [] => return []
  | v :: rest => do
    let s ← shownTask v
    return s :: (← shownList rest)

def shownEntries : List (Value × Value) → M (List String)
  | [] => return []
  | (k, v) :: rest => do
    let a ← shownTask k
    let b ← shownTask v
    return (a ++ ": " ++ b) :: (← shownEntries rest)

/-- Show a container, by dots if it is being shown already. -/
def once (r : Ref) (dots : String) (m : M String) : M String := do
  let h ← heap
  if h.showing.contains r then return dots
  else fun h =>
    let before := h.showing
    (m { h with showing := r :: before }).bind fun h res => .done { h with showing := before } res

def joined (xs : List String) : String := ", ".intercalate xs

def braces (s : String) : String := "\x7b" ++ s ++ "\x7d"

/-- The text of an object of a snippet's class. -/
def instanceText (cls : Ref) : M String := do
  return "<" ++ (← heap).fullName cls ++ " object at " ++ address ++ ">"

/-- The text of an object, but for what its class says about it. -/
def objText (r : Ref) : M String := do
  match ← obj r with
  | .list xs => once r "[...]" do return "[" ++ joined (← shownList xs.toList) ++ "]"
  | .dict es => once r (braces "...") do return braces (joined (← shownEntries es))
  | .names vars => once r (braces "...") do
      return braces (joined (← shownEntries (vars.map fun (n, v) => (.text n, v))))
  | .set frozen xs => do
    let inner ← once r "..." do return joined (← shownList (Value.listed xs))
    if frozen then return if xs.isEmpty then "frozenset()" else "frozenset(" ++ braces inner ++ ")"
    else return if xs.isEmpty then "set()" else braces inner
  | .cls _ => return "<class '" ++ (← heap).fullName r ++ "'>"
  | .function f => return "<function " ++ f.qualname ++ " at " ++ address ++ ">"
  | .bound f self => do
    let name ← match f with
      | .ref r => do
        match ← obj r with
        | .function f => pure f.qualname
        | _ => pure "?"
      | _ => pure "?"
    return "<bound method " ++ name ++ " of " ++ (← shownTask self) ++ ">"
  | .exception e => do
    let args ← shownList e.args
    return (← heap).className e.cls ++ "(" ++ joined args ++ ")"
  | .instanceOf c _ => instanceText c
  | .module name _ => return "<module '" ++ name ++ "'>"
  | .iterator t _ => return "<" ++ t ++ " object at " ++ address ++ ">"
  | .generator _ _ _ q t => return "<" ++ t ++ " object " ++ q ++ " at " ++ address ++ ">"
  | .importer .plain => return "<bound method ClasspathImporter.import_module of <object at " ++ address ++ ">>"
  | .importer _ => return "<function safe_import_factory.<locals>._safe_import at " ++ address ++ ">"
  | .code f _ => return "<code object <module> at " ++ address ++ ", file " ++ Text.quote f ++ ", line 1>"
  | .file f => return "<_io.TextIOWrapper name=" ++ Text.quote f.path ++ " mode=" ++ Text.quote f.mode ++
      " encoding='UTF-8'>"
  | .errors => return "<_io.TextIOWrapper name='<stderr>' mode='w' encoding='utf-8'>"
  | .alias origin args => do
    return (← shownTask origin) ++ "[" ++ joined (← shownList args) ++ "]"
  | .view t d => do
    return t ++ "([" ++ joined (← shownList (viewItems t (← obj d).entries)) ++ "])"
  | o => do
    let h ← heap
    return "<" ++ h.className (Heap.classOfObj o) ++ " object at " ++ address ++ ">"

/-- The text by which a value is shown. -/
def showing (v : Value) : M String :=
  match v with
  | .none => return "None"
  | .bool b => return if b then "True" else "False"
  | .int n => intText n
  | .float x => return Number.floatText x
  | .complex a b => return complexText a b
  | .text s => return Text.quote s
  | .bytes bs => return Text.quoteBytes bs
  | .ellipsis => return "Ellipsis"
  | .notImplemented => return "NotImplemented"
  | .tuple [x] => do return "(" ++ (← shownTask x) ++ ",)"
  | .tuple xs => do return "(" ++ joined (← shownList xs) ++ ")"
  | .range a b c =>
    return "range(" ++ toString a ++ ", " ++ toString b ++ (if c = 1 then "" else ", " ++ toString c) ++ ")"
  | .slice a b c => do
    return "slice(" ++ joined (← shownList [a, b, c]) ++ ")"
  | .native n => return "<built-in function " ++ n ++ ">"
  | .method s n => do
    return "<built-in method " ++ n ++ " of " ++ (← typeName s) ++ " object at " ++ address ++ ">"
  | .ref r => do
    match ← callUser v "__repr__" [] with
    | some (.text s) => return s
    | some other => typeError ("__repr__ returned non-string (type " ++ (← typeName other) ++ ")")
    | Option.none => objText r

/-- The plain text of a value, by a task of its own. -/
def textTask (v : Value) : M String := do
  match v with
  | .text s => return s
  | _ =>
    match ← valueOf (.text v) with
    | .text s => return s
    | _ => return ""

/-- The text of an exception: its only argument, or all of them. -/
def argsText (args : List Value) : M String :=
  match args with
  | [] => return ""
  | [a] => textTask a
  | args => shownTask (.tuple args)

/-- The text of an exception about characters or bytes that a codec does not know. -/
def codecText? (args : List Value) : Option String :=
  let spot (codec verb one many : String) (shown : Option String) (start stop : Int) (reason : String) : String :=
    "'" ++ codec ++ "' codec can't " ++ verb ++ " " ++
      (match shown with
        | some s => one ++ " " ++ s ++ " in position " ++ toString start
        | Option.none => many ++ " in position " ++ toString start ++ "-" ++ toString (stop - 1)) ++ ": " ++ reason
  match args with
  | [.text codec, .bytes bs, .int start, .int stop, .text reason] =>
    let shown := if stop = start + 1 then (bs[start.toNat]?).map fun b => "0x" ++ Text.hexByte b.toNat else Option.none
    some (spot codec "decode" "byte" "bytes" shown start stop reason)
  | [.text codec, .text s, .int start, .int stop, .text reason] =>
    let shown := if stop = start + 1 then
        (s.toList[start.toNat]?).map fun c => "'" ++ String.ofList (Text.escapeCode c) ++ "'"
      else Option.none
    some (spot codec "encode" "character" "characters" shown start stop reason)
  | _ => Option.none

/-- The text of an exception, which for some classes has a form of its own. -/
def exceptionText (e : ExceptionInfo) : M String := do
  let h ← heap
  let below (c : String) : Bool := h.isSubclass e.cls (classRef c)
  if below "KeyError" then
    match e.args with
    | [a] => shownTask a
    | args => argsText args
  else if below "OSError" then
    match e.attrs.lookup "errno", e.attrs.lookup "strerror", e.attrs.lookup "filename" with
    | some n, some s, some f => do
      return "[Errno " ++ (← textTask n) ++ "] " ++ (← textTask s) ++ ": " ++ (← shownTask f)
    | some n, some s, Option.none => do return "[Errno " ++ (← textTask n) ++ "] " ++ (← textTask s)
    | _, _, _ => argsText e.args
  else if below "SyntaxError" then
    match e.args, e.attrs.lookup "filename", e.attrs.lookup "lineno" with
    | m :: _, some (.text f), some (.int n) => do
      return (← textTask m) ++ " (" ++ Path.fileName f ++ ", line " ++ toString n ++ ")"
    | [m], _, _ => textTask m
    | args, _, _ => argsText args
  else if below "ImportError" then
    match e.attrs.lookup "msg" with
    | some m => textTask m
    | Option.none => argsText e.args
  else if below "UnicodeDecodeError" || below "UnicodeEncodeError" then
    match codecText? e.args with
    | some s => return s
    | Option.none => argsText e.args
  else if below "BaseExceptionGroup" || below "ExceptionGroup" then
    match e.args with
    | [m, items] => do
      let n ← match items with
        | .tuple xs => pure xs.length
        | .ref r => match ← obj r with
          | .list xs => pure xs.size
          | _ => pure 0
        | _ => pure 0
      return (← textTask m) ++ " (" ++ toString n ++ " sub-exception" ++ (if n = 1 then "" else "s") ++ ")"
    | args => argsText args
  else argsText e.args

/-- The plain text of a value. -/
def textOf (v : Value) : M String :=
  match v with
  | .text s => return s
  | .ref r => do
    match ← callUser v "__str__" [] with
    | some (.text s) => return s
    | some other => typeError ("__str__ returned non-string (type " ++ (← typeName other) ++ ")")
    | Option.none =>
      match ← obj r with
      | .exception e => exceptionText e
      | _ => showing v
  | v => showing v

/-- The text of a value in ASCII. -/
def asciiText (v : Value) : M String := do
  let s ← shownTask v
  return String.ofList (s.toList.flatMap fun c =>
    if c.toNat < 128 then [c] else Text.escapeCode c)

end M

end Evalbox
