import Evalbox.Exec.Definitions
import Evalbox.Lang.Check
import Evalbox.Lang.Parse

/-!
# Expressions

The value of an expression, part by part from left to right. A failure is put on the line where the
part that failed begins; a call of a method is put on the line of the method's name.
-/

namespace Evalbox.M

open Lang

/-- What a function is called in an error about the arguments that are spread for it. -/
def calledName (f : Value) : M String := do
  match f with
  | .ref r =>
    match ← obj r with
    | .function fn => return (match fn.module with
        | .text m => m ++ "."
        | _ => "") ++ fn.qualname ++ "()"
    | .cls i => return (if i.module = "builtins" then "" else i.module ++ ".") ++ i.qualname ++ "()"
    | .bound (.ref g) _ =>
      match ← obj g with
      | .function fn => return (match fn.module with
          | .text m => m ++ "."
          | _ => "") ++ fn.qualname ++ "()"
      | _ => shownTask f
    | _ => do return (← typeName f) ++ " object"
  | .native n => return n ++ "()"
  | .method s n => do return (← typeName s) ++ "." ++ n ++ "()"
  | _ => do return (← typeName f) ++ " object"

/-- Every item of a value that is spread. -/
def spread (v : Value) (complaint : M String) : M (List Value) := do
  match ← attempt (iterOf v) with
  | .ok _ => collectAll v
  | .error e =>
    if ← isKind e "TypeError" then typeError (← complaint) else fail e

/-- The values of arguments or of the items of a display. -/
def spreadParts (env : Env) (complaint : Value → M String) : List Expr → M (List Value)
  | [] => return []
  | .starred s e :: rest => do
    let v ← part env e
    let xs ← atLine s.start.line (spread v (complaint v))
    return xs ++ (← spreadParts env complaint rest)
  | e :: rest => do
    let v ← part env e
    return v :: (← spreadParts env complaint rest)

/-- The values of keyword arguments. -/
def keywordParts (env : Env) (f : Value) (done : Names) : List KeywordArg → M Names
  | [] => return done
  | .mk _ (some n) e :: rest => do
    let v ← part env e
    if (done.lookup n).isSome then
      typeError ((← calledName f) ++ " got multiple values for keyword argument '" ++ n ++ "'")
    else keywordParts env f (done ++ [(n, v)]) rest
  | .mk _ none e :: rest => do
    let v ← part env e
    let isMapping : Bool ← (match v with
      | .ref r => do
        match ← obj r with
        | .dict _ | .names _ => return true
        | _ => return (← userMethod v "keys").isSome
      | _ => return false : M Bool)
    if !isMapping then
      typeError ((← calledName f) ++ " argument after ** must be a mapping, not " ++ (← typeName v))
    else
      let es ← entriesFrom v
      let more ← addAll done es
      keywordParts env f more rest
where
  addAll (done : Names) : List (Value × Value) → M Names
    | [] => return done
    | (.text n, w) :: es => do
      if (done.lookup n).isSome then
        typeError ((← calledName f) ++ " got multiple values for keyword argument '" ++ n ++ "'")
      else addAll (done ++ [(n, w)]) es
    | _ :: _ => typeError "keywords must be strings"

/-- The namespace in which a block keeps its names, as a value. -/
def localsOf (env : Env) : M Value := do
  match env.scope with
  | .space vars => return .ref vars
  | .call vars locals => dictOfNames ((← namesOf vars).filter fun (n, _) => locals.contains n)

/-- The fault of source text that is compiled by a snippet. -/
def raiseRefusal {α : Type} (file : String) (r : Refusal) : M α :=
  match r with
  | .nullCharacter => valueError nullText
  | .rejected j => raiseWith j.kind.name [.text j.text] [("filename", .text file), ("lineno", .int j.line)]

/-- Compile source text. -/
def compileSource (env : Env) (text file : String) (mode : String) : M CodeBody := do
  audit "compile" [.bytes (Text.encode text.toList), .text file]
  let text := if mode = "eval" then text.toList.dropWhile fun c => c = ' ' || c = '\t' else text.toList
  match parse text false with
  | (.error r, _) => raiseRefusal file r
  | (.ok body, _) =>
    match check (4 * (text.length + 4)) ⟨env.optimize ≥ 1, env.lazyHints⟩ body with
    | (.error r, _) => raiseRefusal file (.rejected r)
    | (.ok (), _) =>
      if mode = "eval" then
        match body with
        | [.expr _ e] => return .expression e
        | _ => raiseWith "SyntaxError" [.text "invalid syntax"] [("filename", .text file), ("lineno", .int 1)]
      else return .statements body

/-- Run compiled source in namespaces. -/
def runCode (env : Env) (file : String) (body : CodeBody) (globals locals : Ref) : M Value := do
  audit "exec" [.text "code"]
  if ((← namesOf globals).lookup "__builtins__").isNone then
    setName globals "__builtins__" (.ref env.builtins)
  let inner : Env := { env with
    file, scope := .space locals, enclosing := [], globals, global := [], className := none, path := "" }
  frame file do
    match body with
    | .expression e => part inner e
    | .statements b => do
      let _ ← run (.block inner b)
      return .none

/-- The namespaces that `eval` and `exec` are given. -/
def namespacesOf (name : String) (env : Env) (args : List Value) : M (Ref × Ref) := do
  let asRef (v : Value) (what : String) : M Ref := do
    match v with
    | .ref r =>
      match ← obj r with
      | .dict _ | .names _ => return r
      | _ => typeError (name ++ "() " ++ what ++ ", not " ++ (← typeName v))
    | _ => typeError (name ++ "() " ++ what ++ ", not " ++ (← typeName v))
  match (args[1]? : Option Value), (args[2]? : Option Value) with
  | some .none, none | none, none => do
    match ← localsOf env with
    | .ref l => return (env.globals, l)
    | _ => return (env.globals, env.globals)
  | some g, none | some g, some .none => do
    let r ← asRef g "globals must be a dict"
    return (r, r)
  | some .none, some l => do return (env.globals, ← asRef l "locals must be a mapping")
  | some g, some l => do return (← asRef g "globals must be a dict", ← asRef l "locals must be a mapping")
  | none, some l => do return (env.globals, ← asRef l "locals must be a mapping")

/-- Call `eval` or `exec`. -/
def evaluateText (name : String) (env : Env) (args : List Value) (kwargs : Names) : M Value := do
  checkArity (.between 1 3) name args kwargs
  let (globals, locals) ← namespacesOf name env args
  match args.headD .none with
  | .text s => do
    let body ← compileSource env s "<string>" name
    let v ← runCode env "<string>" body globals locals
    return if name = "eval" then v else .none
  | v =>
    let bad : M Value := typeError (name ++ "() arg 1 must be a string, bytes or code object")
    match v with
    | .ref r =>
      match ← obj r with
      | .code file body => do
        let v ← runCode env file body globals locals
        return if name = "eval" then v else .none
      | _ => bad
    | _ => bad

/-- Call `compile`. -/
def compileText (env : Env) (args : List Value) (kwargs : Names) : M Value := do
  let given ← takeArguments "compile" ["source", "filename", "mode", "flags", "dont_inherit", "optimize",
    "_feature_version"] args kwargs
  match argumentAt given 0, argumentAt given 1, argumentAt given 2 with
  | none, _, _ => typeError "compile() missing required argument 'source' (pos 1)"
  | _, none, _ => typeError "compile() missing required argument 'filename' (pos 2)"
  | _, _, none => typeError "compile() missing required argument 'mode' (pos 3)"
  | some (.text s), some (.text file), some (.text mode) =>
    if !(["exec", "eval", "single"].contains mode) then
      valueError "compile() mode must be 'exec', 'eval' or 'single'"
    else do
      audit "compile" [.text s, .text file]
      make (.code file (← compileSource env s file mode))
  | _, _, _ => typeError "compile() arg 1 must be a string, bytes or AST object"

/-- The instance and class that `super` means where nothing is said. -/
def implicitSuper (env : Env) : M Value := do
  match env.enclosing.find? (·.2.contains "__class__"), env.scope with
  | some (cell, _), .call vars locals => do
    match (← namesOf cell).lookup "__class__", locals.head?.bind fun n => some n with
    | some cls, some n =>
      match (← namesOf vars).lookup n with
      | some self => construct "super" [cls, self] []
      | none => raise "RuntimeError" "super(): arg[0] deleted"
    | none, _ => raise "RuntimeError" "super(): empty __class__ cell"
    | _, none => raise "RuntimeError" "super(): no arguments"
  | _, _ => raise "RuntimeError" "super(): __class__ cell not found"

/-- Make a class by a call of `type`. It belongs to the module of the block, unless it names another. -/
def makeClass (env : Env) (args : List Value) (kwargs : Names) : M Value := do
  let home ← moduleName env
  let args ← args.mapM fun v => do
    match v with
    | .ref r =>
      match ← obj r with
      | .dict es =>
        let named : Bool := es.any (·.1.sameKey (.text "__module__"))
        if named then return v else make (.dict (es ++ [(.text "__module__", home)]))
      | _ => return v
    | _ => return v
  valueOf (.apply (.ref (classRef "type")) args kwargs)

/-- Call a value from a block. Some functions look at the names of the block. -/
def callFrom (env : Env) (f : Value) (args : List Value) (kwargs : Names) : M Value := do
  match f with
  | .native "eval" => evaluateText "eval" env args kwargs
  | .native "exec" => evaluateText "exec" env args kwargs
  | .native "compile" => compileText env args kwargs
  | .native "globals" => do checkArity .zero "globals" args kwargs; return .ref env.globals
  | .native "locals" => do checkArity .zero "locals" args kwargs; localsOf env
  | .native "vars" => if args.isEmpty then localsOf env else callBuiltin "vars" args kwargs
  | .native "dir" =>
    if args.isEmpty then do
      match ← localsOf env with
      | .ref r => do
        let names := ((← namesOf r).map (·.1)).mergeSort fun a b => a ≤ b
        make (.list (names.map Value.text).toArray)
      | _ => return .none
    else callBuiltin "dir" args kwargs
  | .ref r =>
    if r = classRef "super" && args.isEmpty then implicitSuper env
    else if r = classRef "type" && args.length = 3 then makeClass env args kwargs
    else valueOf (.apply f args kwargs)
  | _ => valueOf (.apply f args kwargs)

/-- Put the text of a value into a template. -/
def formattedPart (env : Env) (value : Expr) (conversion : Option Char) (spec : Option Expr) : M Value := do
  let v ← part env value
  let v ← converted v conversion
  let s ← match spec with
    | some e => do
      match ← part env e with
      | .text s => pure s
      | _ => pure ""
    | none => pure ""
  return .text (← formatValue v s)

/-- The texts of the parts of a template, joined. -/
def joinedParts (env : Env) : List Expr → M (List String)
  | [] => return []
  | e :: rest => do
    let s ← match ← part env e with
      | .text s => pure s
      | _ => pure ""
    return s :: (← joinedParts env rest)

/-- The entries of a dict display. -/
def displayEntries (env : Env) (line : Nat) (done : List (Value × Value)) : List DictItem → M (List (Value × Value))
  | [] => return done
  | .pair k v :: rest => do
    let k ← part env k
    let v ← part env v
    atLine line (needHashable k)
    displayEntries env line (putEntry done k v) rest
  | .spread e :: rest => do
    let v ← part env e
    let isMapping : Bool ← (match v with
      | .ref r => do
        match ← obj r with
        | .dict _ | .names _ => return true
        | _ => return (← userMethod v "keys").isSome
      | _ => return false : M Bool)
    if !isMapping then atLine line (do typeError ("'" ++ (← typeName v) ++ "' object is not a mapping"))
    else displayEntries env line (merged done (← atLine line (entriesFrom v))) rest

/-- The first truth value that decides, or the last value. -/
def junction (env : Env) (conjunction : Bool) : List Expr → M Value
  | [] => return .none
  | [e] => part env e
  | e :: rest => do
    let v ← part env e
    if (← truthOf v) = conjunction then junction env conjunction rest else return v

/-- Compare from left to right as long as the answers are true. -/
def compareChain (env : Env) (line : Nat) (left : Value) : List CompareOp → List Expr → M Value
  | op :: ops, e :: es => do
    let right ← part env e
    let answer ← atLine line (valueOf (.compare op left right))
    if ops.isEmpty then return answer
    else if ← truthOf answer then compareChain env line right ops es
    else return answer
  | _, _ => return .none

/-- The surroundings of a comprehension in a block. -/
def insideComprehension (env : Env) (name : String) (clauses : List Clause) : M Env := do
  let vars ← alloc (.names [])
  let locals := (clauses.flatMap fun c => match c with
    | .mk _ t _ _ => t.targetNames treeBound).map env.spell
  return { env with
    scope := .call vars locals, enclosing := env.around, path := env.path ++ name ++ ".<locals>." }

/-- Run a comprehension. The first iterable is asked for in the block around. -/
def comprehension (env : Env) (line : Nat) (name : String) (clauses : List Clause) (sink : Sink) : M Unit := do
  match clauses with
  | .mk _ _ iter _ :: _ => do
    let it ← atLine line (iterOf (← part env iter))
    let inner ← insideComprehension env name clauses
    let _ ← atLine line (run (.comprehend inner line clauses it sink))
  | [] => pure ()

/-- The values of a lambda's defaults. -/
def defaultsOf (env : Env) : Params → M (List Value × List (Option Value))
  | .mk _ _ _ _ kds _ ds => do
    let ds ← parts env ds
    let ks ← kds.mapM fun k => match k with
      | some e => do return some (← part env e)
      | none => return none
    return (ds, ks)

/-- An index, which may be a slice. -/
def indexPart (env : Env) (e : Expr) : M Value := do
  match e with
  | .slice _ a b c =>
    let one (x : Option Expr) : M Value := match x with
      | some e => part env e
      | none => return .none
    return .slice (← one a) (← one b) (← one c)
  | e => part env e

/-- Call what an expression means. -/
def callPart (env : Env) (s : Span) (callee : Expr) (args : List Expr) (keywords : List KeywordArg) : M Value := do
  let (f, line) ← (match callee with
    | .attr a _ _ => do
      let plain := !(args.any fun e => e matches .starred ..) && !(keywords.any (·.name.isNone))
      return (← part env callee, if plain then a.stop.line else s.start.line)
    | _ => return (← part env callee, s.start.line) : M (Value × Nat))
  let complaint (v : Value) : M String := do
    return (← calledName f) ++ " argument after * must be an iterable, not " ++ (← typeName v)
  let values ← spreadParts env complaint args
  let named ← atLine line (keywordParts env f [] keywords)
  atLine line (callFrom env f values named)

/-- Hand an item out of a generator and wait to be woken up. -/
def yieldValue (v : Value) : M Value := do
  match ← (fun h => .yield h v fun h w => .done h (.ok w) : M Wake) with
  | .send w => return w
  | .throw e => raiseAgain e
where
  raiseAgain (e : Raised) : M Value := fun h =>
    match h.handling with
    | c :: _ => if c = e.exc then .done h (.error e)
      else .done (h.modifyException e.exc fun i => if i.context.isNone then { i with context := some c } else i) (.error e)
    | [] => .done h (.error e)

/-- The value of an expression. -/
def exprOf (env : Env) (e : Expr) : M Value := do
  let here {α : Type} (m : M α) : M α := atLine e.span.start.line m
  match e with
  | .constant _ c => return .ofConstant c
  | .name _ id => here (readVariable env id)
  | .boolean _ c es => junction env c es
  | .named _ t v => do
    let v ← part env v
    match t with
    | .name _ id => bindName env id v
    | _ => pure ()
    return v
  | .binary _ op a b => do
    let x ← part env a
    let y ← part env b
    here (binary (symbolOf op) op x y)
  | .unary _ op a => do
    let v ← part env a
    here (unaryOf op v)
  | .function _ ps body => do
    let (ds, ks) ← defaultsOf env ps
    makeFunction env "<lambda>" ps ds ks (.expression body) false .none
  | .conditional _ t a b => do
    if ← here (truthOf (← part env t)) then part env a else part env b
  | .dict s items => make (.dict (← displayEntries env s.start.line [] items))
  | .set _ es => do
    let xs ← spreadParts env afterStar es
    here (do make (.set false (← distinct xs)))
  | .list _ es => make (.list (← spreadParts env afterStar es).toArray)
  | .tuple _ es => return .tuple (← spreadParts env afterStar es)
  | .listOf s item cs => do
    let target ← alloc (.list #[])
    comprehension env s.start.line "<listcomp>" cs (.list target item)
    return .ref target
  | .setOf s item cs => do
    let target ← alloc (.set false [])
    comprehension env s.start.line "<setcomp>" cs (.set target item)
    return .ref target
  | .dictOf s k v cs => do
    let target ← alloc (.dict [])
    comprehension env s.start.line "<dictcomp>" cs (.dict target k v)
    return .ref target
  | .generator s item cs =>
    match cs with
    | .mk _ _ iter _ :: _ => do
      let it ← here (iterOf (← part env iter))
      let inner ← insideComprehension env "<genexpr>" cs
      let id ← fun h => Act.create h (.comprehend inner s.start.line cs it (.yields item)) fun h n => .done h (.ok n)
      make (.generator id .fresh "<genexpr>" (env.qualified "<genexpr>") "generator")
    | [] => return .none
  | .await _ v => do valueOf (.yieldFrom (← iterOf (← part env v)) .none)
  | .yield _ v => do
    let v ← match v with
      | some e => part env e
      | none => pure .none
    here (yieldValue v)
  | .yieldFrom _ v => do
    let v ← part env v
    here (do valueOf (.yieldFrom (← iterOf v) .none))
  | .compare s a ops es => do compareChain env s.start.line (← part env a) ops es
  | .call s f args ks => callPart env s f args ks
  | .formatted _ v c spec => here (formattedPart env v c spec)
  | .joined _ es => return .text (String.join (← joinedParts env es))
  | .attr s v n => do
    let v ← part env v
    atLine s.stop.line (valueOf (.getAttr v (env.spell n)))
  | .subscript _ v i => do
    let v ← part env v
    let i ← indexPart env i
    here (valueOf (.apply (.native "getitem") [v, i] []))
  | .starred _ v => part env v
  | .slice .. => indexPart env e
where
  afterStar (v : Value) : M String := do
    return "Value after * must be an iterable, not " ++ (← typeName v)

/-- One step of handing on the items of another iterator. -/
def yieldFromStep (iter sent : Value) : M Signal := do
  let given ← (match iter, sent with
    | .ref r, w => do
      match ← obj r with
      | .generator .. => wake r (.send w)
      | _ => nextGiven iter
    | _, _ => nextGiven iter : M Given)
  match given with
  | .ended v => return .value v
  | .item v => do
    match ← attempt (yieldValue v) with
    | .ok w => return .goOn (.yieldFrom iter w)
    | .error e =>
      match iter with
      | .ref r =>
        match ← obj r with
        | .generator .. => do
          match ← wake r (.throw e) with
          | .ended v => return .value v
          | .item v => do
            let w ← yieldValue v
            return .goOn (.yieldFrom iter w)
        | _ => fail e
      | _ => fail e

end Evalbox.M
