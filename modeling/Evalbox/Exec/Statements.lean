import Evalbox.Exec.Assign

/-!
# Statements

What the statements of a block do. A block ends by going to its end, or early by a return or a jump out
of a loop, which the statements around it pass on. An exception that is handled in the block where it was
raised is noted there first.
-/

namespace Evalbox.M

open Lang

/-- Import a module by the import function among the builtins. -/
def importModule (env : Env) (name : String) (names : Option (List String)) (level : Int) : M Value := do
  match (← namesOf env.builtins).lookup "__import__" with
  | none => raise "ImportError" "__import__ not found"
  | some f =>
    let plain : M Value := do
      let fromlist : Value := match names with
        | some ns => .tuple (ns.map .text)
        | none => .none
      valueOf (.apply f [.text name, .ref env.globals, .none, fromlist, .int level] [])
    match f with
    | .ref r =>
      match ← obj r with
      | .importer g =>
        let package : Option String := match (← namesOf env.globals).lookup "__package__" with
          | some (.text p) => some p
          | _ => none
        valueOf (.importName g name package names level)
      | _ => plain
    | _ => plain

/-- Where a module lies, for the error about a name that it lacks. -/
def moduleOrigin (v : Value) : M (String × String) := do
  match v with
  | .ref r =>
    match ← obj r with
    | .module n vars =>
      match (← namesOf vars).lookup "__file__" with
      | some (.text f) => return (n, f)
      | _ => return (n, "unknown location")
    | _ => return ("<unknown module name>", "unknown location")
  | _ => return ("<unknown module name>", "unknown location")

/-- Take a name from a module: one of its attributes, or a module inside it. -/
def importedName (module : Value) (name : String) : M Value := do
  match ← getAttr? module name with
  | some v => return v
  | none => do
    let (n, file) ← moduleOrigin module
    let h ← heap
    match h.hosted.lookup (n ++ "." ++ name) with
    | some v => return v
    | none =>
      if (h.hosted.lookup n).isSome && !isKnownHost n && !name.startsWith "nope" then
        return .native (n ++ "." ++ name)
      else
        raiseWith "ImportError" [.text ("cannot import name '" ++ name ++ "' from '" ++ n ++ "' (" ++ file ++ ")")]
          [("msg", .text ("cannot import name '" ++ name ++ "' from '" ++ n ++ "' (" ++ file ++ ")")),
           ("name", .text n)]

/-- Bind the names of an import. -/
def importAll (env : Env) : List Alias → M Unit
  | [] => return ()
  | a :: rest => do
    let top ← importModule env a.name none 0
    match a.bound with
    | none => bindName env (a.name.splitOn "." |>.headD a.name) top
    | some n => do
      let leaf ← (a.name.splitOn "." |>.drop 1).foldlM importedName top
      bindName env n leaf
    importAll env rest

/-- The public names of a module. -/
def publicNames (module : Value) : M (List String) := do
  match ← getAttr? module "__all__" with
  | some v => do
    let xs ← collectAll v
    return xs.filterMap fun x => match x with
      | .text s => some s
      | _ => none
  | none =>
    match module with
    | .ref r =>
      match ← obj r with
      | .module _ vars => return ((← namesOf vars).map (·.1)).filter fun n => !n.startsWith "_"
      | _ => return []
    | _ => return []

/-- Bind names that are taken from a module. -/
def importFrom (env : Env) (module : Option String) (names : List Alias) (level : Nat) : M Unit := do
  let m ← importModule env (module.getD "") (some (names.map (·.name))) level
  for a in names do
    if a.name = "*" then
      for n in ← publicNames m do
        bindName env n (← valueOf (.getAttr m n))
    else bindName env (a.bound.getD a.name) (← importedName m a.name)

/-- Set what an exception was raised from. -/
def setCause (e : Ref) (cause : Option Ref) : M Unit :=
  change fun h => h.modifyException e fun i => { i with cause, suppressed := true }

/-- Raise an exception. Without one, the exception that is being handled goes on its way. -/
def raiseStatement (env : Env) (line : Nat) (exception cause : Option Expr) : M Signal := do
  match exception with
  | none =>
    match (← heap).handling with
    | e :: _ => fail ⟨e, some line, true⟩
    | [] => atLine line (raise "RuntimeError" "No active exception to reraise")
  | some x => do
    let v ← part env x
    let c ← match cause with
      | some y => do pure (some (← part env y))
      | none => pure none
    atLine line do
      let e ← exceptionOf v
      match c with
      | none => pure ()
      | some .none => setCause e none
      | some w => do
        match ← attempt (exceptionOf w) with
        | .ok r => setCause e (some r)
        | .error x =>
          if ← isKind x "TypeError" then typeError "exception causes must derive from BaseException" else fail x
      raiseRef e

/-- Whether an exception is of a class that a handler names. -/
def handlerMatches (cls : Ref) : Nat → Value → M Bool
  | 0, _ => return false
  | fuel + 1, v => do
    let bad : M Bool := typeError "catching classes that do not inherit from BaseException is not allowed"
    let h ← heap
    match v with
    | .tuple xs => xs.foldlM (fun found x => if found then return true else handlerMatches cls fuel x) false
    | .ref r =>
      match h.get r with
      | .cls _ => if h.isSubclass r (classRef "BaseException") then return h.isSubclass cls r else bad
      | _ => bad
    | _ => bad

/-- Handle an exception by the first handler that matches. -/
def handle (env : Env) (e : Raised) : List Handler → M Signal
  | [] => fail e
  | .mk s type name body :: rest => do
    let chosen ← match type with
      | none => pure true
      | some t => handlingOf e.exc do
        let v ← part env t
        atLine s.start.line (handlerMatches ((← heap).exceptionInfo e.exc).cls 100 v)
    if !chosen then handle env e rest
    else do
      match name with
      | some n => bindName env n (.ref e.exc)
      | none => pure ()
      let res ← attempt (handlingOf e.exc (run (.block env body)))
      match name with
      | some n => do
        let _ ← attempt (dropName env n)
        pure ()
      | none => pure ()
      match res with
      | .ok sig => return sig
      | .error x => fail x

/-- Run a block with its handlers. -/
def tryHandlers (env : Env) (body : List Stmt) (handlers : List Handler) (orelse : List Stmt) : M Signal := do
  match ← attempt (run (.block env body)) with
  | .ok .next => if orelse.isEmpty then return .next else run (.block env orelse)
  | .ok sig => return sig
  | .error e => if handlers.isEmpty then fail e else do handle env (← noteRaised env.file e) handlers

/-- Run a block whose end is always reached. -/
def tryFinally (env : Env) (m : M Signal) (final : List Stmt) : M Signal := do
  match ← attempt m with
  | .ok sig => do
    match ← run (.block env final) with
    | .next => return sig
    | other => return other
  | .error e => do
    let e ← noteRaised env.file e
    match ← handlingOf e.exc (run (.block env final)) with
    | .next => fail e
    | other => return other

/-- Run a block in contexts, the first of them outermost. -/
def withContexts (env : Env) (line : Nat) (body : List Stmt) : List WithItem → M Signal
  | [] => run (.block env body)
  | item :: rest => do
    let c ← part env item.context
    let at_ := item.context.span.start.line
    let missing : M Value := do
      typeError ("'" ++ (← typeName c) ++ "' object does not support the context manager protocol")
    let method (name : String) : M Value := do
      match ← attempt (valueOf (.getAttr c name)) with
      | .ok f => return f
      | .error _ => missing
    let enter ← atLine at_ (method "__enter__")
    let exit ← atLine at_ (method "__exit__")
    let v ← atLine at_ (valueOf (.apply enter [] []))
    match ← attempt (do
        match item.target with
        | some t => assign env treeBound t v
        | none => pure ()
        withContexts env line body rest) with
    | .ok sig => do
      let _ ← atLine at_ (valueOf (.apply exit [.none, .none, .none] []))
      return sig
    | .error e => do
      let e ← noteRaised env.file e
      let cls := ((← heap).exceptionInfo e.exc).cls
      let swallow ← handlingOf e.exc do
        truthOf (← atLine at_ (valueOf (.apply exit [.ref cls, .ref e.exc, .none] [])))
      if swallow then return .next else fail e

/-- The hints of a function. -/
def functionHints (env : Env) (params : Params) (returns : Option Expr) : M Value := do
  let one (name : String) (e : Expr) : M (Value × Value) := do
    if env.lazyHints then return (.text name, .text e.text)
    else return (.text name, ← part env e)
  let entries ← params.all.filterMapM fun p => match p.hint with
    | some e => do return some (← one (env.spell p.name) e)
    | none => return none
  let last ← match returns with
    | some e => do pure [← one "return" e]
    | none => pure []
  make (.dict (entries ++ last))

/-- Call decorators, the last one first. -/
def decorate (v : Value) : List (Nat × Value) → M Value
  | [] => return v
  | (line, f) :: rest => do
    let inner ← decorate v rest
    atLine line (valueOf (.apply f [inner] []))

/-- The values of decorators with their lines. -/
def decoratorsOf (env : Env) (ds : List Expr) : M (List (Nat × Value)) := do
  let vs ← parts env ds
  return (ds.map fun d => d.span.start.line).zip vs

/-- Define a function. -/
def define (env : Env) (isAsync : Bool) (name : String) (params : Params) (body : List Stmt)
    (decorators : List Expr) (returns : Option Expr) : M Unit := do
  let ds ← decoratorsOf env decorators
  let (defaults, keywordDefaults) ← defaultsOf env params
  let hints ← functionHints env params returns
  let f ← makeFunction env name params defaults keywordDefaults (.statements body) isAsync hints
  bindName env name (← decorate f ds)

/-- Define a class: run its body in a namespace of its own, and make a class of what is bound there. -/
def defineClass (env : Env) (line : Nat) (name : String) (bases : List Expr) (keywords : List KeywordArg)
    (body : List Stmt) (decorators : List Expr) : M Unit := do
  let ds ← decoratorsOf env decorators
  if ((← namesOf env.builtins).lookup "__build_class__").isNone then
    atLine line (nameError "NameError" "__build_class__" "__build_class__ not found")
  let complaint (v : Value) : M String := do
    return "__build_class__() argument after * must be an iterable, not " ++ (← typeName v)
  let bases ← spreadParts env complaint bases
  let named ← keywordParts env (.native "__build_class__") [] keywords
  let v ← atLine line do
    let qualname := env.qualified name
    let vars ← alloc (.names [("__module__", ← moduleName env), ("__qualname__", .text qualname)])
    match env.documentation body with
    | .none => pure ()
    | d => setName vars "__doc__" d
    let cell ← alloc (.names [])
    let inner : Env := { env with
      scope := .space vars, enclosing := (cell, ["__class__"]) :: env.around, className := some name,
      path := qualname ++ ".",
      global := body.flatMap (Stmt.globalNames treeBound) }
    let _ ← frame env.file (run (.block inner body))
    let attrs ← namesOf vars
    let module := match attrs.lookup "__module__" with
      | some (.text m) => m
      | _ => "builtins"
    let cls ← newClass name qualname module bases attrs
    setName cell "__class__" cls
    match cls with
    | .ref r => do
      let h ← heap
      let above := (h.classInfo r).lineage.drop 1
      match above.findSome? fun c => (h.classInfo c).attrs.lookup "__init_subclass__" with
      | some (.ref f) => do
        let g ← match h.get f with
          | .ofClass g => pure g
          | _ => pure (.ref f)
        let _ ← valueOf (.apply g [cls] (named.filter (·.1 ≠ "metaclass")))
      | _ =>
        if (named.filter (·.1 ≠ "metaclass")).isEmpty then pure ()
        else typeError (name ++ ".__init_subclass__() takes no keyword arguments")
      for (n, w) in attrs do
        match ← userMethod w "__set_name__" with
        | some f => let _ ← valueOf (.apply f [w, cls, .text n] [])
        | none => pure ()
    | _ => pure ()
    return cls
  bindName env name (← decorate v ds)

/-- Carry out an assignment with a hint. -/
def assignHinted (env : Env) (target hint : Expr) (value : Option Expr) (simple : Bool) : M Unit := do
  match value with
  | some e => do
    let v ← part env e
    assign env treeBound target v
  | none => pure ()
  match env.scope, target with
  | .space vars, .name _ id =>
    if simple then
      let h ← if env.lazyHints then pure (.text hint.text) else part env hint
      let name := env.spell id
      match (← namesOf vars).lookup "__annotations__" with
      | some (.ref d) => setItem (.ref d) (.text name) h []
      | _ => do
        let d ← make (.dict [(.text name, h)])
        setName vars "__annotations__" d
  | .space _, _ => if !env.lazyHints then let _ ← part env hint
  | _, _ => pure ()

/-- Carry out a statement. -/
def statement (env : Env) (s : Stmt) : M Signal := do
  let line := s.span.start.line
  match s with
  | .expr _ e => do
    let _ ← part env e
    return .next
  | .assign _ ts e => do
    let v ← part env e
    for t in ts do assign env treeBound t v
    return .next
  | .augmented _ t op e => do
    assignAugmented env line t op e
    return .next
  | .annotated _ t h e simple => do
    assignHinted env t h e simple
    return .next
  | .ret _ none => return .ret .none
  | .ret _ (some e) => return .ret (← part env e)
  | .delete _ ts => do
    for t in ts do delete env treeBound t
    return .next
  | .pass _ | .globals .. | .nonlocals .. => return .next
  | .breakLoop _ => return .breakLoop
  | .nextLoop _ => return .nextLoop
  | .importing _ as => do
    atLine line (importAll env as)
    return .next
  | .importFrom _ (some "__future__") .. => return .next
  | .importFrom _ m as level => do
    atLine line (importFrom env m as level)
    return .next
  | .raise _ e c => raiseStatement env line e c
  | .assert _ t m =>
    if env.optimize ≥ 1 then return .next
    else if ← truthOf (← part env t) then return .next
    else do
      let args ← match m with
        | some e => do pure [← part env e]
        | none => pure []
      atLine line (raiseWith "AssertionError" args [])
  | .ite _ t b o =>
    if ← atLine line (do truthOf (← part env t)) then run (.block env b)
    else if o.isEmpty then return .next
    else run (.block env o)
  | .whileLoop _ t b o => run (.loop env line t b o)
  | .forLoop _ _ t i b o => do
    let v ← part env i
    let it ← atLine line (iterOf v)
    run (.each env line t it b o)
  | .tryBlock _ b hs o f _ =>
    let inner := tryHandlers env b hs o
    if f.isEmpty then inner else tryFinally env inner f
  | .withBlock _ _ items b => withContexts env line b items
  | .define _ isAsync n ps b ds r => do
    define env isAsync n ps b ds r
    return .next
  | .defineClass _ n bs ks b ds => do
    defineClass env line n bs ks b ds
    return .next
  | .matchBlock .. => return .next

/-- Carry out the statements of a block. -/
def block (env : Env) : List Stmt → M Signal
  | [] => return .next
  | s :: rest => do
    match ← statement env s with
    | .next => block env rest
    | sig => return sig

/-- One turn of a loop with a test. -/
def loopStep (env : Env) (line : Nat) (test : Expr) (body orelse : List Stmt) : M Signal := do
  if ← atLine line (do truthOf (← part env test)) then
    match ← run (.block env body) with
    | .next | .nextLoop => return .goOn (.loop env line test body orelse)
    | .breakLoop => return .next
    | sig => return sig
  else if orelse.isEmpty then return .next
  else return .goOn (.block env orelse)

/-- One turn of a loop over items. -/
def eachStep (env : Env) (line : Nat) (target : Expr) (iter : Value) (body orelse : List Stmt) : M Signal := do
  match ← atLine line (nextTask iter) with
  | none => if orelse.isEmpty then return .next else return .goOn (.block env orelse)
  | some v => do
    assign env treeBound target v
    match ← run (.block env body) with
    | .next | .nextLoop => return .goOn (.each env line target iter body orelse)
    | .breakLoop => return .next
    | sig => return sig

end Evalbox.M
