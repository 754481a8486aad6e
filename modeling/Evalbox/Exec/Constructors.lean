import Evalbox.Datum.Convert
import Evalbox.Exec.BytesMethods
import Evalbox.Exec.NumberMethods

/-!
# Making values of the language's own types

What a class of the language answers when it is called: numbers from texts, containers from anything
that can be gone through, iterators over others.
-/

namespace Evalbox

/-- A plain value as a datum. -/
def Value.datum? : Value → Option Datum
  | .none => some .none
  | .bool b => some (.bool b)
  | .int n => some (.int n)
  | .float x => some (.float x)
  | .text s => some (.text s)
  | .bytes b => some (.bytes b)
  | _ => Option.none

namespace M

/-- The answer of a conversion. -/
def orRaise {α : Type} : Except Fault α → M α
  | .ok a => return a
  | .error f => raiseFault f

/-- Read an integer in a base. -/
def readInBase (base : Int) (shown : String) (text : List Char) : M Value := do
  if base ≠ 0 && (base < 2 || base > 36) then valueError "int() base must be >= 2 and <= 36, or 0"
  else
    let bad : M Value := valueError ("invalid literal for int() with base " ++ toString base ++ ": " ++ shown)
    let (negative, body) := Number.readSign (Text.trim text)
    let written : Option Int := match body with
      | '0' :: c :: _ =>
        let c := Text.lower c
        if c = 'x' then some 16 else if c = 'o' then some 8 else if c = 'b' then some 2 else Option.none
      | _ => Option.none
    let usePrefix := written.isSome && (base = 0 || written = some base)
    let digits := if usePrefix then body.drop 2 else body
    let digits := if usePrefix && digits.head? = some '_' then digits.drop 1 else digits
    let b : Int := if usePrefix then written.getD 10 else if base = 0 then 10 else base
    match Number.readDigits (Text.baseDigit? b.toNat) digits with
    | ([], _) | (_, _ :: _) => bad
    | (ds, []) =>
      if base = 0 && !usePrefix && ds.length > 1 && ds.headD 0 = 0 && ds.any (· ≠ 0) then bad
      else
        let n : Int := Number.ofDigits b.toNat ds
        return .int (if negative then -n else n)

def newInt (args : List Value) (kwargs : Names) : M Value := do
  if args.length > 2 then
    typeError ("int() takes at most 2 arguments (" ++ toString (args.length + kwargs.length) ++ " given)")
  else
    let base := match args[1]? with
      | some b => some b
      | none => kwargs.lookup "base"
    match args, base with
    | [], _ => return .int 0
    | v :: _, some b => do
      let b ← needInt b
      match v with
      | .text s => readInBase b (Text.quote s) s.toList
      | .bytes bs => readInBase b (Text.quoteBytes bs) (bs.map fun x => Char.ofNat x.toNat)
      | _ => typeError "int() can't convert non-string with explicit base"
    | v :: _, Option.none => do
      match v.datum? with
      | some d => return .int (← orRaise d.toInt)
      | Option.none =>
        match ← callUser v "__int__" [] with
        | some (.int n) => return .int n
        | some w => typeError ("__int__ returned non-int (type " ++ (← typeName w) ++ ")")
        | Option.none =>
          match ← callUser v "__index__" [] with
          | some w => return w
          | Option.none =>
            typeError ("int() argument must be a string, a bytes-like object or a real number, not '" ++
              (← typeName v) ++ "'")

def newFloat (args : List Value) (kwargs : Names) : M Value := do
  checkArity (.between 0 1) "float" args kwargs
  match args with
  | [] => return .float 0
  | v :: _ =>
    match v.datum? with
    | some d => return .float (← orRaise d.toFloat)
    | Option.none =>
      match ← callUser v "__float__" [] with
      | some (.float x) => return .float x
      | some w => typeError ((← typeName v) ++ ".__float__ returned non-float (type " ++ (← typeName w) ++ ")")
      | Option.none =>
        typeError ("float() argument must be a string or a real number, not '" ++ (← typeName v) ++ "'")

/-- The name of the error handler among the arguments. -/
def handlerOf (given : List (Option Value)) : M String := do
  match argumentAt given 2 with
  | some (.text s) => return s
  | _ => return "strict"

def newText (args : List Value) (kwargs : Names) : M Value := do
  let given ← takeArguments "str" ["object", "encoding", "errors"] args kwargs
  match argumentAt given 0, argumentAt given 1 with
  | Option.none, _ => return .text ""
  | some (.bytes bs), some (.text name) => decoded bs name (← handlerOf given)
  | some v, some _ => typeError ("decoding to str: need a bytes-like object, " ++ (← typeName v) ++ " found")
  | some v, Option.none => return .text (← textTask v)

def newBytes (args : List Value) (kwargs : Names) : M Value := do
  let given ← takeArguments "bytes" ["source", "encoding", "errors"] args kwargs
  match argumentAt given 0, argumentAt given 1 with
  | Option.none, _ => return .bytes []
  | some (.text s), some (.text name) => encoded s.toList name (← handlerOf given)
  | some (.text _), _ => typeError "string argument without an encoding"
  | some (.bytes bs), _ => return .bytes bs
  | some v, _ =>
    match v.int? with
    | some n => if n < 0 then valueError "negative count" else return .bytes (List.replicate n.toNat 0)
    | Option.none => do
      let items ← collectAll v
      let bs ← items.mapM fun x => do
        let n ← needInt x
        if 0 ≤ n && n < 256 then return n.toNat.toUInt8 else valueError "bytes must be in range(0, 256)"
      return .bytes bs

def newDict (args : List Value) (kwargs : Names) : M Value := do
  let first ← match args with
    | [] => pure []
    | [v] => entriesFrom v
    | _ => typeError ("dict expected at most 1 argument, got " ++ toString args.length)
  make (.dict (merged (merged [] first) (keywordEntries kwargs)))

def newRange (args : List Value) (kwargs : Names) : M Value := do
  checkArity (.between 1 3) "range" args kwargs
  match ← args.mapM needInt with
  | [b] => return .range 0 b 1
  | [a, b] => return .range a b 1
  | [a, b, c] => if c = 0 then valueError "range() arg 3 must not be zero" else return .range a b c
  | _ => return .none

def newEnumerate (args : List Value) (kwargs : Names) : M Value := do
  let given ← takeArguments "enumerate" ["iterable", "start"] args kwargs
  match argumentAt given 0 with
  | Option.none => typeError "enumerate() missing required argument 'iterable' (pos 1)"
  | some v => do
    let start ← match argumentAt given 1 with
      | some s => needInt s
      | Option.none => pure 0
    make (.iterator "enumerate" (.enumerate (← iterOf v) start))

def newReversed (args : List Value) (kwargs : Names) : M Value := do
  checkArity (.between 1 1) "reversed" args kwargs
  let v := args.headD .none
  match v with
  | .text _ | .tuple _ | .bytes _ | .range .. => do itemsIterator "reversed" (← collectAll v).reverse
  | _ =>
    match ← callUser v "__reversed__" [] with
    | some w => return w
    | Option.none =>
      match v with
      | .ref r =>
        match ← obj r with
        | .list xs => itemsIterator "list_reverseiterator" xs.toList.reverse
        | .dict _ | .names _ | .view .. => do itemsIterator "list_reverseiterator" (← collectAll v).reverse
        | _ => typeError ("'" ++ (← typeName v) ++ "' object is not reversible")
      | _ => typeError ("'" ++ (← typeName v) ++ "' object is not reversible")

/-- A collection of the items of at most one argument. -/
def newCollection (name : String) (args : List Value) (kwargs : Names) (make : List Value → M Value) : M Value := do
  checkArity (.between 0 1) name args kwargs
  match args with
  | [] => make []
  | v :: _ => do make (← collectAll v)

/-- Merge the orders of several classes into one that agrees with all of them. The fuel bounds the number
of classes. -/
def mergeLineages : Nat → List (List Ref) → Option (List Ref)
  | 0, _ => Option.none
  | fuel + 1, lists =>
    let lists := lists.filter (!·.isEmpty)
    if lists.isEmpty then some []
    else
      match lists.findSome? fun l => l.head?.bind fun c => if lists.any (·.tail.contains c) then Option.none else some c with
      | Option.none => Option.none
      | some c => (mergeLineages fuel (lists.map fun l => if l.head? = some c then l.tail else l)).map (c :: ·)

/-- Make a class. -/
def newClass (name qualname module : String) (bases : List Value) (attrs : Names) : M Value := do
  let h ← heap
  let refs ← bases.mapM fun b => match b with
    | .ref r => match h.get r with
      | .cls _ => return r
      | .alias (.ref o) _ => return o
      | o => typeError ("'" ++ h.className (Heap.classOfObj o) ++ "' object is not a class")
    | v => do typeError ("'" ++ (← typeName v) ++ "' object is not a class")
  let refs := if refs.isEmpty then [classRef "object"] else refs
  match refs.find? fun r => ["bool", "NoneType", "function", "range", "slice", "ellipsis", "generator"].any (classRef · = r) with
  | some r => typeError ("type '" ++ h.className r ++ "' is not an acceptable base type")
  | Option.none =>
    if refs.eraseDups.length < refs.length then
      typeError ("duplicate base class " ++ h.className ((refs.find? fun r => refs.count r > 1).getD 0))
    else
      match mergeLineages 1000 (refs.map (fun r => (h.classInfo r).lineage) ++ [refs]) with
      | Option.none =>
        typeError ("Cannot create a consistent method resolution\norder (MRO) for bases " ++
          ", ".intercalate (refs.map h.className))
      | some above =>
        let r ← alloc .plain
        let attrs := if (attrs.lookup "__doc__").isSome then attrs else attrs.put "__doc__" .none
        put r (.cls ⟨name, qualname, module, refs, r :: above, attrs.erase "__qualname__"⟩)
        return .ref r

/-- The class of a value, or a class made of a name, the classes above it and what it holds. -/
def newType (args : List Value) : M Value := do
  let wrong (place kind : String) (v : Value) : M Value := do
    typeError ("type.__new__() argument " ++ place ++ " must be " ++ kind ++ ", not " ++ (← typeName v))
  match args with
  | [v] => return .ref ((← heap).classOf v)
  | [.text name, .tuple bases, .ref r] =>
    match ← obj r with
    | .dict _ | .names _ =>
      let attrs : Names := (← obj r).entries.filterMap fun (k, w) => match k with
        | .text n => some (n, w)
        | _ => Option.none
      let module := match attrs.lookup "__module__" with
        | some (.text m) => m
        | _ => "builtins"
      newClass name name module bases attrs
    | _ => wrong "3" "dict" (.ref r)
  | [.text _, .tuple _, v] => wrong "3" "dict" v
  | [.text _, v, _] => wrong "2" "tuple" v
  | [v, _, _] => wrong "1" "str" v
  | _ => typeError "type() takes 1 or 3 arguments"

/-- What a class of the language answers when it is called. -/
def construct (name : String) (args : List Value) (kwargs : Names) : M Value := do
  match name with
  | "int" => newInt args kwargs
  | "float" => newFloat args kwargs
  | "str" => newText args kwargs
  | "bool" => do
    checkArity (.between 0 1) name args kwargs
    return .bool (← truthOf (args.headD .none))
  | "bytes" => newBytes args kwargs
  | "list" => newCollection name args kwargs fun xs => make (.list xs.toArray)
  | "tuple" => newCollection name args kwargs fun xs => return .tuple xs
  | "set" => newCollection name args kwargs fun xs => do make (.set false (← distinct xs))
  | "frozenset" => newCollection name args kwargs fun xs => do make (.set true (← distinct xs))
  | "dict" => newDict args kwargs
  | "range" => newRange args kwargs
  | "type" => newType args
  | "object" =>
    if args.isEmpty && kwargs.isEmpty then make .plain else typeError "object() takes no arguments"
  | "enumerate" => newEnumerate args kwargs
  | "zip" => do
    let its ← args.mapM iterOf
    make (.iterator "zip" (.zip its))
  | "map" =>
    match args with
    | f :: v :: more => do
      let its ← (v :: more).mapM iterOf
      make (.iterator "map" (.map f its))
    | _ => typeError "map() must have at least two arguments."
  | "filter" => do
    checkArity (.between 2 2) name args kwargs
    make (.iterator "filter" (.filter (args.headD .none) (← iterOf ((args[1]?).getD .none))))
  | "reversed" => newReversed args kwargs
  | "slice" =>
    match args with
    | [b] => return .slice .none b .none
    | [a, b] => return .slice a b .none
    | [a, b, c] => return .slice a b c
    | _ => typeError ("slice expected at least 1 argument, got " ++ toString args.length)
  | "complex" =>
    match ← args.mapM (fun v => newFloat [v] []) with
    | [] => return .complex 0 0
    | [.float a] => return .complex a 0
    | .float a :: .float b :: _ => return .complex a b
    | _ => return .complex 0 0
  | "property" => do
    let given ← takeArguments name ["fget", "fset", "fdel", "doc"] args kwargs
    let at_ (i : Nat) : Value := (argumentAt given i).getD .none
    make (.property (at_ 0) (at_ 1) (at_ 2) (at_ 3))
  | "staticmethod" => do checkArity (.between 1 1) name args kwargs; make (.static (args.headD .none))
  | "classmethod" => do checkArity (.between 1 1) name args kwargs; make (.ofClass (args.headD .none))
  | "super" =>
    match args with
    | [.ref cls, self] => do
      let h ← heap
      let of := match self with
        | .ref r => match h.get r with
          | .cls _ => r
          | _ => h.classOf self
        | _ => h.classOf self
      if h.isSubclass of cls then make (.super cls self of)
      else typeError "super(type, obj): obj must be an instance or subtype of type"
    | _ => raise "RuntimeError" "super(): no arguments"
  | _ => typeError ("cannot create '" ++ name ++ "' instances")

end M

end Evalbox
