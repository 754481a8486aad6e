import Evalbox.Exec.Json
import Evalbox.Modules.Host

/-!
# Modules of the host

What the modules of the host offer to a snippet. A few are known in full; of the others only the name
is known, and any attribute that is asked of them by name is a function that does nothing.
-/

namespace Evalbox

/-- Names in the modules that are known in full, but for what `hostConstants` lists. -/
def hostFunctions : List (String × List String) := [
  ("math", ["acos", "acosh", "asin", "asinh", "atan", "atan2", "atanh", "cbrt", "ceil", "comb",
    "copysign", "cos", "cosh", "degrees", "dist", "erf", "erfc", "exp", "exp2", "expm1", "fabs",
    "factorial", "floor", "fmod", "frexp", "fsum", "gamma", "gcd", "hypot", "isclose", "isfinite",
    "isinf", "isnan", "isqrt", "lcm", "ldexp", "lgamma", "log", "log10", "log1p", "log2", "modf",
    "nextafter", "perm", "pow", "prod", "radians", "remainder", "sin", "sinh", "sqrt", "tan", "tanh",
    "trunc", "ulp"]),
  ("json", ["dump", "dumps", "load", "loads", "detect_encoding", "JSONDecoder", "JSONEncoder"]),
  ("sys", ["exit", "getrecursionlimit", "setrecursionlimit", "getsizeof", "getrefcount", "exc_info",
    "intern", "getdefaultencoding", "getfilesystemencoding", "settrace", "gettrace", "audit",
    "addaudithook", "displayhook", "excepthook", "_getframe"]),
  ("os", ["getcwd", "listdir", "open", "close", "write", "read", "mkdir", "makedirs", "remove",
    "unlink", "rmdir", "rename", "stat", "system", "getpid", "getenv", "putenv", "chdir", "scandir",
    "walk", "access", "chmod", "kill", "fork", "popen", "urandom", "cpu_count", "fspath", "environ"]),
  ("posixpath", ["join", "exists", "basename", "dirname", "abspath", "isfile", "isdir", "split",
    "splitext", "normpath", "isabs", "realpath", "expanduser", "getsize", "relpath"]),
  ("threading", ["Lock", "RLock", "Event", "Condition", "Semaphore", "Timer", "Barrier", "local",
    "current_thread", "main_thread", "active_count", "enumerate", "get_ident"]),
  ("time", ["sleep", "time", "monotonic", "perf_counter", "process_time", "time_ns", "strftime",
    "localtime", "gmtime", "ctime", "mktime", "asctime", "strptime"])]

/-- Values in the modules that are known in full. -/
def hostConstants : List (String × List (String × Value)) := [
  ("math", [("pi", .float 3.141592653589793), ("e", .float 2.718281828459045), ("tau", .float 6.283185307179586),
    ("inf", .float (1.0 / 0.0)), ("nan", .float (0.0 / 0.0).abs)]),
  ("sys", [("maxsize", .int 9223372036854775807), ("platform", .text "linux"), ("byteorder", .text "little"),
    ("maxunicode", .int 1114111), ("argv", .tuple []), ("version", .text "3.11.2 (main)"),
    ("version_info", .tuple [.int 3, .int 11, .int 2, .text "final", .int 0]), ("hexversion", .int 51053296),
    ("modules", .none), ("path", .none), ("stdin", .none), ("executable", .text "/usr/bin/python3"),
    ("flags", .none), ("float_info", .none), ("implementation", .none), ("builtin_module_names", .tuple [])]),
  ("os", [("sep", .text "/"), ("name", .text "posix"), ("linesep", .text "\n"), ("curdir", .text "."),
    ("pardir", .text ".."), ("pathsep", .text ":"), ("altsep", .none), ("extsep", .text "."),
    ("devnull", .text "/dev/null"), ("O_RDONLY", .int 0), ("O_WRONLY", .int 1), ("O_RDWR", .int 2),
    ("O_CREAT", .int 64), ("O_EXCL", .int 128), ("O_NOCTTY", .int 256), ("O_TRUNC", .int 512),
    ("O_APPEND", .int 1024), ("O_NONBLOCK", .int 2048), ("O_SYNC", .int 1052672),
    ("O_CLOEXEC", .int 524288), ("O_DIRECTORY", .int 65536), ("F_OK", .int 0), ("R_OK", .int 4),
    ("W_OK", .int 2), ("X_OK", .int 1)]),
  ("posixpath", [("sep", .text "/"), ("curdir", .text "."), ("pardir", .text "..")])]

/-- Where the source of a host module lies; none if it has none. -/
def hostFile (name : String) : Option String :=
  if ["math", "sys", "time", "builtins", "_thread", "itertools", "marshal", "posix", "gc", "atexit", "errno",
    "_io", "_imp", "array", "select", "fcntl"].contains name then none
  else
    let path := "/".intercalate ((if name = "os.path" then "posixpath" else name).splitOn ".")
    some ("/usr/lib/python3.11/" ++ path ++ (if Host.isPackage name && name ≠ "os" then "/__init__.py" else ".py"))

namespace M

/-- The names in a new module of the host. -/
def hostNames (name : String) : M Names := do
  let known : Names := ((hostFunctions.lookup name).getD []).map (fun f => (f, Value.native (name ++ "." ++ f))) ++
    (hostConstants.lookup name).getD []
  let more : Names ← (match name with
    | "sys" => do
      let out ← make .console
      let errors ← make .errors
      return [("stdout", out), ("stderr", errors), ("__stdout__", out), ("__stderr__", errors)]
    | "json" => return [("JSONDecodeError", .ref (classRef "JSONDecodeError"))]
    | "threading" => return [("Thread", .ref (classRef "Thread"))]
    | "builtins" =>
      return builtinFunctions.map (fun f => (f, .native f)) ++
        (builtinClassNames ++ builtinExceptions).map fun c => (c, .ref (classRef c))
    | "os" => return [("error", .ref (classRef "OSError"))]
    | _ => return [] : M Names)
  return [("__name__", .text name), ("__doc__", .none), ("__package__", .text name)] ++ known ++ more

/-- A module of the host, which is made when it is first asked for. -/
def hostModule (name : String) : M Value := do
  match (← heap).hosted.lookup name with
  | some v => return v
  | none => do
    let own := if name = "os.path" then "posixpath" else name
    let vars ← alloc (.names (← hostNames own))
    match hostFile own with
    | some f => setName vars "__file__" (.text f)
    | none => pure ()
    let v ← make (.module own vars)
    change fun h => { h with hosted := h.hosted ++ [(name, v)] }
    return v

/-- A module of the host together with those that it lies in. -/
def hostPath (name : String) : M Value := do
  let parts := name.splitOn "."
  let rec go : Nat → Value → M Value
    | 0, v => return v
    | n + 1, v => do
      let i := parts.length - n
      let path := ".".intercalate (parts.take i)
      let m ← hostModule path
      match v with
      | .ref r =>
        match ← obj r with
        | .module _ vars => setName vars ((parts[i - 1]?).getD "") m
        | _ => pure ()
      | _ => pure ()
      go n m
  go parts.length .none

/-- Whether all attributes of a host module are known. -/
def isKnownHost (name : String) : Bool := (hostFunctions.lookup name).isSome || name = "builtins"

/-- The arguments of a function of the host as floats. -/
def floatArg (v : Value) : M Float := do
  match v with
  | .float x => return x
  | v =>
    match v.int? with
    | some n => floatOf n
    | none =>
      match ← callUser v "__float__" [] with
      | some (.float x) => return x
      | _ => typeError ("must be real number, not " ++ (← typeName v))

def domainError {α : Type} : M α := valueError "math domain error"

/-- A float as the integer that a rounding gives. -/
def wholeFloat (x : Float) : M Value := do
  match Number.truncate? x with
  | some n => return .int n
  | none =>
    if x.isNaN then valueError "cannot convert float NaN to integer"
    else raise "OverflowError" "cannot convert float infinity to integer"

/-- A function of the module `math`. -/
def callMath (name : String) (args : List Value) (kwargs : Names) : M Value := do
  let a := args.headD .none
  let shown := "math." ++ name
  let real (f : Float → Float) : M Value := do
    checkArity .one shown args kwargs
    return .float (f (← floatArg a))
  let guarded (ok : Float → Bool) (f : Float → Float) : M Value := do
    checkArity .one shown args kwargs
    let x ← floatArg a
    if ok x || x.isNaN then return .float (f x) else domainError
  let finite (f : Float → Float) : M Value := do
    checkArity .one shown args kwargs
    let x ← floatArg a
    let y := f x
    if y.isInf && !x.isInf then raise "OverflowError" "math range error"
    else if y.isNaN && !x.isNaN then domainError else return .float y
  match name with
  | "sqrt" => guarded (fun x => x ≥ 0) Float.sqrt
  | "floor" | "ceil" | "trunc" => do
    checkArity .one shown args kwargs
    match a with
    | .float x => wholeFloat (match name with
      | "floor" => x.floor
      | "ceil" => x.ceil
      | _ => x)
    | a =>
      match a.int? with
      | some n => return .int n
      | none => do
        let x ← floatArg a
        wholeFloat (if name = "floor" then x.floor else if name = "ceil" then x.ceil else x)
  | "fabs" => real Float.abs
  | "sin" => finite Float.sin
  | "cos" => finite Float.cos
  | "tan" => finite Float.tan
  | "asin" => guarded (fun x => x.abs ≤ 1) Float.asin
  | "acos" => guarded (fun x => x.abs ≤ 1) Float.acos
  | "atan" => real Float.atan
  | "exp" => finite Float.exp
  | "log2" => guarded (fun x => x > 0) Float.log2
  | "log10" => guarded (fun x => x > 0) Float.log10
  | "log" => do
    checkArity (.between 1 2) name args kwargs
    let x ← floatArg a
    if x ≤ 0 then domainError
    else match args[1]? with
      | none => return .float x.log
      | some b => do
        let y ← floatArg b
        if y ≤ 0 then domainError
        else if y.log == 0 then raise "ZeroDivisionError" "float division by zero"
        else return .float (x.log / y.log)
  | "pow" => do
    checkArity (.between 2 2) name args kwargs
    return .float ((← floatArg a).pow (← floatArg ((args[1]?).getD .none)))
  | "hypot" => do
    let xs ← args.mapM floatArg
    return .float (xs.foldl (fun s x => s + x * x) 0).sqrt
  | "radians" => real fun x => x * (3.141592653589793 / 180.0)
  | "degrees" => real fun x => x * (180.0 / 3.141592653589793)
  | "isnan" => do return .bool (← floatArg a).isNaN
  | "isinf" => do return .bool (← floatArg a).isInf
  | "isfinite" => do return .bool (← floatArg a).isFinite
  | "gcd" => do return .int ((← args.mapM needInt).foldl (fun g n => (Nat.gcd g n.natAbs)) 0 : Nat)
  | "factorial" => do
    let n ← needInt a
    if n < 0 then valueError "factorial() not defined for negative values"
    else return .int (((List.range n.toNat).foldl (fun p i => p * (i + 1)) 1 : Nat))
  | "prod" => do
    let items ← collectAll a
    items.foldlM (fun p x => binary "*" .mul p x) (.int 1)
  | "isqrt" => do
    let n ← needInt a
    if n < 0 then valueError "isqrt() argument must be nonnegative" else return .int n.toNat.sqrt
  | _ => return .none

/-- The path of an argument. -/
def pathArg (v : Value) (what : String) : M String := do
  match v with
  | .text s => return s
  | v => do typeError (what ++ " should be string, bytes, os.PathLike or integer, not " ++ (← typeName v))

/-- Open a file for a descriptor. -/
def openDescriptor (args : List Value) (kwargs : Names) : M Value := do
  let given ← takeArguments "open" ["path", "flags", "mode", "dir_fd"] args kwargs
  let path ← pathArg ((argumentAt given 0).getD .none) "open: path"
  let flags ← needInt ((argumentAt given 1).getD .none)
  let bits := flags.toNat
  audit "open" [.text path, .none, .int (Int.ofNat (bits ||| 524288))]
  let has (n : Nat) : Bool := bits &&& n ≠ 0
  match ← fileBytes path with
  | .ok _ =>
    if has 64 && has 128 then osError "FileExistsError" 17 "File exists" (some (.text path))
    if has 512 then writeBytes path []
  | .error .missing => if has 64 then writeBytes path [] else raiseOpen .missing path
  | .error e => raiseOpen e path
  let r ← alloc (.file ⟨path, bits &&& 3 ≠ 1, bits &&& 3 ≠ 0, has 1024, true, 0, false, "rb"⟩)
  let fd : Int := 3 + (← heap).descriptors.length
  change fun h => { h with descriptors := h.descriptors ++ [(fd, r)] }
  return .int fd

/-- The open file of a descriptor. -/
def descriptorFile (v : Value) : M (Ref × OpenFile) := do
  let n ← needInt v
  match (← heap).descriptors.lookup n with
  | some r =>
    match ← obj r with
    | .file f => if f.closed then osError "OSError" 9 "Bad file descriptor" none else return (r, f)
    | _ => osError "OSError" 9 "Bad file descriptor" none
  | none => osError "OSError" 9 "Bad file descriptor" none

/-- A function of the module `os`. -/
def callOs (name : String) (args : List Value) (kwargs : Names) : M Value := do
  let a := args.headD .none
  match name with
  | "getcwd" => do
    checkArity .zero "posix.getcwd" args kwargs
    match ← ask .currentDirectory with
    | .text s => return .text s
    | _ => return .none
  | "listdir" => do
    let path ← match args.head? with
      | some (.text s) => pure s
      | none | some .none => pure "."
      | some v => do typeError ("listdir: path should be string, bytes, os.PathLike, integer or None, not " ++ (← typeName v))
    audit "os.listdir" [.text path]
    match ← ask (.listFiles path) with
    | .names xs => make (.list (xs.map Value.text).toArray)
    | .refused .missing => osError "FileNotFoundError" 2 "No such file or directory" (some (.text path))
    | _ => osError "NotADirectoryError" 20 "Not a directory" (some (.text path))
  | "open" => openDescriptor args kwargs
  | "write" => do
    let (r, f) ← descriptorFile a
    writeFile r f ((args[1]?).getD .none)
  | "read" => do
    let (r, f) ← descriptorFile a
    fileMethod r f "read" (args.drop 1)
  | "close" => do
    let (r, f) ← descriptorFile a
    put r (.file { f with closed := true })
    return .none
  | "fspath" => return a
  | "getenv" => return (args[1]?).getD .none
  | "getpid" => return .int 1
  | _ => return .none

/-- A function of the module `os.path`. -/
def callPath (name : String) (args : List Value) : M Value := do
  let texts := args.filterMap fun v => match v with
    | .text s => some s
    | _ => none
  let p := texts.headD ""
  match name with
  | "join" => return .text (texts.drop 1 |>.foldl Path.join p)
  | "basename" => return .text ((p.splitOn "/").getLastD "")
  | "dirname" => return .text (Path.parent p)
  | "exists" | "isfile" => do
    match ← fileBytes p with
    | .ok _ => return .bool true
    | .error .isDirectory => return .bool (name = "exists")
    | .error _ => return .bool false
  | "isdir" => do
    match ← fileBytes p with
    | .error .isDirectory => return .bool true
    | _ => return .bool false
  | "isabs" => return .bool (p.startsWith "/")
  | "split" => return .tuple [.text (Path.parent p), .text ((p.splitOn "/").getLastD "")]
  | _ => return .text p

/-- A function of a module of the host. -/
def callHost (module name : String) (args : List Value) (kwargs : Names) : M Value := do
  let a := args.headD .none
  match module, name with
  | "math", _ => callMath name args kwargs
  | "os", _ => callOs name args kwargs
  | "posixpath", _ => callPath name args
  | "json", "loads" => loadJson args
  | "json", "dumps" => dumpJson args kwargs
  | "sys", "exit" => raiseWith "SystemExit" args []
  | "sys", "getrecursionlimit" => return .int 1000
  | "sys", "intern" => return a
  | "sys", "getdefaultencoding" => return .text "utf-8"
  | "time", "sleep" => do
    checkArity .one "time.sleep" args kwargs
    let micros ← match a with
      | .float x => if x < 0 then valueError "sleep length must be non-negative" else pure (x * 1000000).toUInt64.toNat
      | a =>
        match a.int? with
        | some n => if n < 0 then valueError "sleep length must be non-negative" else pure (n.toNat * 1000000)
        | none => do typeError ("'" ++ (← typeName a) ++ "' object cannot be interpreted as an integer")
    let _ ← ask (.sleep micros)
    return .none
  | "time", "time" | "time", "monotonic" | "time", "perf_counter" => return .float 0
  | _, _ => return .none

end M

end Evalbox
