import Evalbox.Exec.Constructors
import Evalbox.Exec.Files

/-!
# The builtin functions

The functions of the language that need nothing from where they are called. `print` writes piece by
piece, so that what was written before a failure stays written.
-/

namespace Evalbox

/-- How many arguments the builtin functions take. -/
def builtinArity : List (String × Arity) := [
  ("abs", .one), ("all", .one), ("any", .one), ("ascii", .one), ("bin", .one), ("callable", .one),
  ("chr", .one), ("delattr", .between 2 2), ("divmod", .between 2 2), ("format", .between 1 2),
  ("getattr", .between 2 3), ("hasattr", .between 2 2), ("hash", .one), ("hex", .one), ("id", .one),
  ("input", .between 0 1), ("isinstance", .between 2 2), ("issubclass", .between 2 2),
  ("iter", .between 1 2), ("len", .one), ("next", .between 1 2), ("oct", .one), ("ord", .one),
  ("repr", .one), ("setattr", .between 3 3), ("getitem", .between 2 2)]

namespace M

/-- Whether a class is among those that a class, a tuple or an alternative stands for. The fuel bounds
the nesting of tuples. -/
def classMatches (what : String) (cls : Ref) : Nat → Value → M Bool
  | 0, _ => return false
  | fuel + 1, spec => do
    let bad : M Bool := typeError (what ++ ", a tuple of " ++
      (if what.startsWith "isinstance" then "types" else "classes") ++ ", or a union")
    match spec with
    | .ref r =>
      match ← obj r with
      | .cls _ => return (← heap).isSubclass cls r
      | .alias .none args => anyMatch fuel args
      | _ => bad
    | .tuple xs => anyMatch fuel xs
    | .none => if what.startsWith "union" then return cls = classRef "NoneType" else bad
    | _ => bad
where
  anyMatch (fuel : Nat) : List Value → M Bool
    | [] => return false
    | x :: xs => do
      if ← classMatches what cls fuel x then return true else anyMatch fuel xs

/-- The class that a value is, for questions about classes. -/
def needClass (v : Value) : M Ref := do
  let bad : M Ref := typeError "issubclass() arg 1 must be a class"
  match v with
  | .ref r => match ← obj r with
    | .cls _ => return r
    | _ => bad
  | _ => bad

/-- Add up items. -/
def sumFrom (acc : Value) : List Value → M Value
  | [] => return acc
  | x :: xs => do sumFrom (← binary "+" .add acc x) xs

/-- The least or the greatest item by a key; of equal ones the first. -/
def extreme (op : Lang.CompareOp) (best : Value × Value) : List (Value × Value) → M Value
  | [] => return best.2
  | x :: xs => do
    if ← truthOf (← valueOf (.compare op x.1 best.1)) then extreme op x xs else extreme op best xs

/-- The least or the greatest of the arguments. -/
def leastOrGreatest (name : String) (op : Lang.CompareOp) (args : List Value) (kwargs : Names) : M Value := do
  match kwargs.find? fun (k, _) => k ≠ "key" && k ≠ "default" with
  | some (k, _) => typeError ("'" ++ k ++ "' is an invalid keyword argument for " ++ name ++ "()")
  | none =>
    let items ← match args with
      | [] => typeError (name ++ " expected at least 1 argument, got 0")
      | [v] => collectAll v
      | vs =>
        if (kwargs.lookup "default").isSome then
          typeError ("Cannot specify a default for " ++ name ++ "() with multiple positional arguments")
        else pure vs
    match ← keyed ((kwargs.lookup "key").getD .none) items with
    | [] =>
      match kwargs.lookup "default" with
      | some d => return d
      | none => valueError (name ++ "() arg is an empty sequence")
    | x :: rest => extreme op x rest

/-- Write a text to the standard output or to a file. -/
def writeTo (file : Value) (text : String) : M Unit := do
  match file with
  | .none => let _ ← ask (.write text.toList)
  | .ref r =>
    match ← obj r with
    | .console => let _ ← ask (.write text.toList)
    | .errors => pure ()
    | .file f => let _ ← writeFile r f (.text text)
    | _ =>
      let write ← valueOf (.getAttr file "write")
      let _ ← valueOf (.apply write [.text text] [])
  | _ => let _ ← valueOf (.getAttr file "write")

/-- An argument of `print` that is a text or is left out. -/
def separator (name : String) (v : Option Value) (usual : String) : M String := do
  match v with
  | none | some .none => return usual
  | some (.text s) => return s
  | some w => typeError (name ++ " must be None or a string, not " ++ (← typeName w))

def printAll (file : Value) (sep : String) : Bool → List Value → M Unit
  | _, [] => return ()
  | first, v :: rest => do
    if !first then writeTo file sep
    writeTo file (← textTask v)
    printAll file sep false rest

def print (args : List Value) (kwargs : Names) : M Value := do
  match kwargs.find? fun (k, _) => !(["sep", "end", "file", "flush"].contains k) with
  | some (k, _) => typeError ("'" ++ k ++ "' is an invalid keyword argument for print()")
  | none =>
    let sep ← separator "sep" (kwargs.lookup "sep") " "
    let stop ← separator "end" (kwargs.lookup "end") "\n"
    let file := (kwargs.lookup "file").getD .none
    printAll file sep true args
    writeTo file stop
    return .none

/-- One step of `all` or `any`. -/
def quantifyStep (all : Bool) (iter : Value) : M Signal := do
  match ← nextTask iter with
  | none => return .value (.bool all)
  | some v => if (← truthOf v) = all then return .goOn (.quantify all iter) else return .value (.bool !all)

/-- A power, with a modulus if there is one. -/
def power (args : List Value) : M Value := do
  match args with
  | [a, b] | [a, b, .none] => binary "** or pow()" .pow a b
  | [a, b, m] =>
    match a.int?, b.int?, m.int? with
    | some x, some n, some k =>
      if k = 0 then valueError "pow() 3rd argument cannot be 0"
      else if n < 0 then valueError "base is not invertible for the given modulus"
      else return .int (Int.fmod (modPow n.toNat.log2.succ x n.toNat k) k)
    | _, _, _ => typeError "pow() 3rd argument not allowed unless all arguments are integers"
  | _ => typeError "pow() missing required argument 'exp' (pos 2)"
where
  modPow : Nat → Int → Nat → Int → Int
    | 0, _, _, _ => 1
    | fuel + 1, x, n, k =>
      let half := modPow fuel (Int.fmod (x * x) k) (n / 2) k
      if n = 0 then 1 else if n % 2 = 1 then Int.fmod (x * half) k else half

def round (args : List Value) (kwargs : Names) : M Value := do
  let given ← takeArguments "round" ["number", "ndigits"] args kwargs
  match argumentAt given 0 with
  | none => typeError "round() missing required argument 'number' (pos 1)"
  | some v =>
    let places ← match argumentAt given 1 with
      | none | some .none => pure none
      | some d => do pure (some (← needInt d))
    match v, places with
    | .float x, none =>
      match Number.roundWhole? x with
      | some n => return .int n
      | none =>
        if x.isNaN then valueError "cannot convert float NaN to integer"
        else raise "OverflowError" "cannot convert float infinity to integer"
    | .float x, some d => return .float (Number.roundTo x d)
    | v, places =>
      match v.int?, places with
      | some n, none => return .int n
      | some n, some d => return .int (Number.roundInt n d)
      | none, _ =>
        match ← callUser v "__round__" [] with
        | some w => return w
        | none => typeError ("type " ++ (← typeName v) ++ " doesn't define __round__ method")

/-- An integer in another base. -/
def inBase (base : Nat) (mark : String) (v : Value) : M Value := do
  let n ← needInt v
  return .text ((if n < 0 then "-" else "") ++ mark ++ String.ofList (Number.baseDigits base n.natAbs false))

def absolute (v : Value) : M Value := do
  match v with
  | .float x => return .float x.abs
  | .complex a b => return .float (a * a + b * b).sqrt
  | _ =>
    match v.int? with
    | some n => return .int n.natAbs
    | none =>
      match ← callUser v "__abs__" [] with
      | some w => return w
      | none => typeError ("bad operand type for abs(): '" ++ (← typeName v) ++ "'")

/-- The next item of an iterator, or a stop. -/
def advance (args : List Value) : M Value := do
  let it := args.headD .none
  if !(← isIterator it) then typeError ("'" ++ (← typeName it) ++ "' object is not an iterator")
  else match ← nextGiven it with
    | .item v => return v
    | .ended v =>
      match args[1]? with
      | some d => return d
      | none => raiseWith "StopIteration" (match v with
          | .none => []
          | v => [v]) []

/-- The names of the attributes of a value. -/
def attributeNames (v : Value) : M (List String) := do
  let h ← heap
  let lineage := (h.classInfo (h.classOf v)).lineage
  let own : List String := match v with
    | .ref r => match h.get r with
      | .instanceOf _ attrs => attrs.map (·.1)
      | .cls i => i.lineage.flatMap fun c => (h.classInfo c).attrs.map (·.1)
      | .module _ vars => match h.get vars with
        | .names ns => ns.map (·.1)
        | _ => []
      | _ => []
    | _ => []
  let methods := lineage.flatMap fun c => ((h.classInfo c).attrs.map (·.1)) ++ ((typeMethods.lookup (h.className c)).getD []).map (·.1)
  return (own ++ methods).eraseDups.mergeSort fun a b => a ≤ b

/-- An argument as the name of an attribute. -/
def attributeName (what : String) (v : Value) : M String := do
  match v with
  | .text s => return s
  | _ => typeError (what ++ "attribute name must be string, not '" ++ (← typeName v) ++ "'")

/-- A builtin function of values. -/
def callBuiltin (name : String) (args : List Value) (kwargs : Names) : M Value := do
  match builtinArity.lookup name with
  | some a => checkArity a name args kwargs
  | none => pure ()
  let a := args.headD .none
  let b := (args[1]?).getD .none
  match name with
  | "print" => print args kwargs
  | "len" => return .int (← lengthOf a)
  | "sum" => do
    let given ← takeArguments name ["iterable", "start"] args kwargs
    match argumentAt given 0 with
    | none => typeError "sum() takes at least 1 positional argument (0 given)"
    | some v =>
      match (argumentAt given 1).getD (.int 0) with
      | .text _ => typeError "sum() can't sum strings [use ''.join(seq) instead]"
      | start => do sumFrom start (← collectAll v)
  | "sorted" =>
    if args.length ≠ 1 then typeError ("sorted expected 1 argument, got " ++ toString args.length)
    else match kwargs.find? fun (k, _) => k ≠ "key" && k ≠ "reverse" with
      | some (k, _) => typeError ("'" ++ k ++ "' is an invalid keyword argument for sort()")
      | none => do
        let items ← collectAll a
        let reverse ← truthOf ((kwargs.lookup "reverse").getD .none)
        make (.list (← sortedItems items ((kwargs.lookup "key").getD .none) reverse).toArray)
  | "abs" => absolute a
  | "min" => leastOrGreatest name .less args kwargs
  | "max" => leastOrGreatest name .greater args kwargs
  | "any" | "all" => do valueOf (.quantify (name = "all") (← iterOf a))
  | "isinstance" => do
    return .bool (← classMatches "isinstance() arg 2 must be a type" ((← heap).classOf a) 100 b)
  | "issubclass" => do
    return .bool (← classMatches "issubclass() arg 2 must be a class" (← needClass a) 100 b)
  | "getattr" => do
    let n ← attributeName "" b
    match args[2]? with
    | none => valueOf (.getAttr a n)
    | some d => return (← getAttr? a n).getD d
  | "hasattr" => do return .bool (← getAttr? a (← attributeName "" b)).isSome
  | "setattr" => do
    setAttr a (← attributeName "" b) ((args[2]?).getD .none)
    return .none
  | "delattr" => do
    dropAttr a (← attributeName "" b)
    return .none
  | "repr" => return .text (← shownTask a)
  | "ascii" => return .text (← asciiText a)
  | "chr" => do
    let n ← needInt a
    if 0 ≤ n && n < 0x110000 then return .text (String.singleton (Char.ofNat n.toNat))
    else valueError "chr() arg not in range(0x110000)"
  | "ord" =>
    match a with
    | .text s =>
      match s.toList with
      | [c] => return .int c.toNat
      | cs => typeError ("ord() expected a character, but string of length " ++ toString cs.length ++ " found")
    | .bytes [x] => return .int x.toNat
    | .bytes bs => typeError ("ord() expected a character, but string of length " ++ toString bs.length ++ " found")
    | v => do typeError ("ord() expected string of length 1, but " ++ (← typeName v) ++ " found")
  | "hex" => inBase 16 "0x" a
  | "oct" => inBase 8 "0o" a
  | "bin" => inBase 2 "0b" a
  | "divmod" => do return .tuple [← binary "divmod()" .floorDiv a b, ← binary "divmod()" .mod a b]
  | "pow" => do
    let given ← takeArguments name ["base", "exp", "mod"] args kwargs
    power (given.filterMap id)
  | "round" => round args kwargs
  | "hash" => do
    needHashable a
    match a.int? with
    | some n => return .int n
    | none => return .int 0
  | "id" => return .int (match a with
      | .ref r => 140000000000000 + 16 * r
      | _ => 140000000000000)
  | "callable" =>
    match a with
    | .native _ | .method .. => return .bool true
    | .ref r =>
      match ← obj r with
      | .function _ | .bound .. | .cls _ | .importer _ | .alias .. => return .bool true
      | _ => return .bool (← userMethod a "__call__").isSome
    | _ => return .bool false
  | "format" =>
    match b with
    | .none =>
      if args.length = 1 then return .text (← formatValue a "")
      else typeError "format() argument 2 must be str, not None"
    | .text spec => return .text (← formatValue a spec)
    | v => do typeError ("format() argument 2 must be str, not " ++ (← typeName v))
  | "iter" =>
    match args with
    | [f, sentinel] => make (.iterator "callable_iterator" (.calls f sentinel))
    | _ => iterOf a
  | "next" => advance args
  | "open" => openFile args kwargs
  | "input" => raise "EOFError" "EOF when reading a line"
  | "dir" => make (.list ((← attributeNames a).map Value.text).toArray)
  | "vars" => do
    match ← getAttr? a "__dict__" with
    | some d => return d
    | none => typeError "vars() argument must have __dict__ attribute"
  | "getitem" => getItem a b
  | "breakpoint" => return .none
  | _ => typeError ("'builtin_function_or_method' object is not callable")

end M

end Evalbox
