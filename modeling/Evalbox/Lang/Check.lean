import Evalbox.Lang.Symbols
import Evalbox.Lang.Folding
import Evalbox.Lang.Parse.Basic

/-!
# Checks on statements

What the grammar cannot say: statements that stand in the wrong kind of block, arguments that are
given twice, imports from `__future__` that come too late, and stars where nothing can be unpacked.
The walk follows the order in which code is laid down, and reports warnings about suspicious code on
its way; the body of a `finally` clause is laid down once for each way into it, and warned about as
often.
-/

namespace Evalbox.Lang

/-- How a source is compiled: without assertions, and with hints that are not evaluated. -/
structure CheckOptions where
  dropAsserts : Bool
  lazyHints : Bool
  deriving DecidableEq, Repr

namespace Check

/-- Checking reports warnings, also when it ends in a rejection. -/
abbrev M := ExceptT Rejection (StateM (List Warning))

def reject {α : Type} (text : String) (s : Span) : M α := throw (Rejection.atSpan text s)

def warn (text : String) (s : Span) : M Unit :=
  modify fun ws => ⟨.grammar, text, s.start.line⟩ :: ws

/-- What a jump out of a statement may have to go through. -/
inductive Around where
  | loop
  | final (again : M Unit)
  | starHandler

/-- Where a statement stands. -/
structure Context where
  kind : Symbols.BlockKind
  isAsync : Bool
  isComprehension : Bool
  around : List Around
  futureLine : Nat
  options : CheckOptions

/-- The context of a block of its own inside another. -/
def Context.inside (c : Context) (kind : Symbols.BlockKind) (isAsync isComprehension : Bool) : Context :=
  { c with kind, isAsync, isComprehension, around := [] }

/-- Leave all surroundings, or those up to the nearest loop. Answers whether there is a loop. -/
def unwind (toLoop : Bool) (s : Span) : List Around → M Bool
  | [] => pure false
  | .loop :: rest => if toLoop then pure true else unwind toLoop s rest
  | .final again :: rest => do
    again
    unwind toLoop s rest
  | .starHandler :: _ =>
    reject "'break', 'continue' and 'return' cannot appear in an except* block" s

/-- A name that cannot be bound. -/
def forbidBinding (name : String) (s : Span) : M Unit :=
  if name = "__debug__" then reject "cannot assign to __debug__" s else pure ()

/-- Arguments with the same name. -/
def checkKeywords : List KeywordArg → M Unit
  | [] => pure ()
  | k :: rest => do
    match k.name with
    | none => pure ()
    | some n =>
      forbidBinding n k.span
      match rest.find? (·.name = some n) with
      | some other => reject ("keyword argument repeated: " ++ n) other.span
      | none => pure ()
    checkKeywords rest

/-- A comparison by identity with a literal. -/
def checkIdentity (depth : Nat) (s : Span) (left : Expr) : List CompareOp → List Expr → M Unit
  | op :: ops, right :: rights => do
    let plain (e : Expr) : Bool := match e.folded? depth with
      | none => true
      | some .none | some (.bool _) | some .ellipsis => true
      | some _ => false
    if (op = .is || op = .isNot) && !(plain left && plain right) then
      if op = .is then warn "\"is\" with a literal. Did you mean \"==\"?" s
      else warn "\"is not\" with a literal. Did you mean \"!=\"?" s
    else checkIdentity depth s right ops rights
  | _, _ => pure ()

/-- A call of something that cannot be called. -/
def checkCallee (depth : Nat) (s : Span) (callee : Expr) : M Unit :=
  let suspicious := (callee.folded? depth).isSome || match callee with
    | .tuple .. | .list .. | .listOf .. | .dict .. | .dictOf .. | .set .. | .setOf .. | .generator ..
    | .joined .. | .formatted .. => true
    | _ => false
  match suspicious, callee.formType? depth with
  | true, some t => warn ("'" ++ t ++ "' object is not callable; perhaps you missed a comma?") s
  | _, _ => pure ()

/-- A subscript of something that has none, or with something that cannot be an index. -/
def checkSubscript (depth : Nat) (s : Span) (value index : Expr) : M Unit := do
  let v := value.folded? depth
  let bare := match v with
    | some .none | some .ellipsis | some (.int _) | some (.bool _) | some (.float _) | some .complex => true
    | some _ => false
    | none => match value with
      | .set .. | .setOf .. | .generator .. | .function .. => true
      | _ => false
  if bare then
    warn ("'" ++ (value.formType? depth).getD "" ++
      "' object is not subscriptable; perhaps you missed a comma?") s
  let sequence := match v with
    | some (.text _) | some (.bytes _) | some (.tuple _) => true
    | some _ => false
    | none => match value with
      | .tuple .. | .list .. | .listOf .. | .joined .. | .formatted .. => true
      | _ => false
  match sequence, value.formType? depth, index.formType? depth with
  | true, some t, some i =>
    if i ≠ "int" && i ≠ "bool" then
      warn (t ++ " indices must be integers or slices, not " ++ i ++ "; perhaps you missed a comma?") s
  | _, _, _ => pure ()

/-- The one comparison under a `not` that turns into its opposite. -/
def negated? : Expr → Option Expr
  | .compare s l [op] rs =>
    match op with
    | .is => some (.compare s l [.isNot] rs)
    | .isNot => some (.compare s l [.is] rs)
    | _ => none
  | _ => none

/-- At most one star among targets. -/
def checkStars (s : Span) (es : List Expr) : M Unit :=
  if (es.filter fun | .starred .. => true | _ => false).length > 1 then
    reject "multiple starred expressions in assignment" s
  else pure ()

/-- Walk an expression, whose tree is at most `depth` deep; `store` says that it is a target. -/
def expr : Nat → Context → Bool → Expr → M Unit
  | 0, _, _, _ => pure ()
  | depth + 1, c, store, e =>
    let load := expr depth c false
    let item (e : Expr) : M Unit := match e with
      | .starred _ v => load v
      | e => load e
    let target (e : Expr) : M Unit := match e with
      | .starred _ v => expr depth c true v
      | e => expr depth c true e
    let inner := expr depth (c.inside .function c.isAsync true)
    let comprehension (cs : List Clause) (items : List Expr) : M Unit := do
      let clauses := cs.zipIdx
      clauses.forM fun
        | (.mk isAsync t i conditions, k) => do
          if isAsync && !c.isAsync && !c.isComprehension then
            reject "asynchronous comprehension outside of an asynchronous function" e.span
          if k > 0 then inner false i
          inner true t
          conditions.forM (inner false)
      items.forM (inner false)
      match cs with
      | .mk _ _ i _ :: _ => load i
      | [] => pure ()
    match e with
    | .boolean _ _ es => es.forM load
    | .named _ t v => do
      load v
      expr depth c true t
    | .binary _ _ l r => do load l; load r
    | .unary _ op a =>
      match op, negated? a with
      | .not, some a' => load a'
      | _, _ => load a
    | .function _ ps body => do
      (Symbols.defaultsOf ps).forM load
      expr depth (c.inside .function false false) false body
    | .conditional _ t b o => do load t; load b; load o
    | .dict _ items => items.forM fun
      | .pair k v => do load k; load v
      | .spread v => load v
    | .set _ es => es.forM item
    | .listOf _ i cs | .setOf _ i cs | .generator _ i cs => comprehension cs [i]
    | .dictOf _ k v cs => comprehension cs [k, v]
    | .await s v => do
      if c.kind ≠ .function then reject "'await' outside function" s
      if !c.isAsync && !c.isComprehension then reject "'await' outside async function" s
      load v
    | .yield s v => do
      if c.kind ≠ .function then reject "'yield' outside function" s
      v.forM load
    | .yieldFrom s v => do
      if c.kind ≠ .function then reject "'yield' outside function" s
      if c.isAsync then reject "'yield from' inside async function" s
      load v
    | .compare s l ops rs => do
      checkIdentity depth s l ops rs
      load l
      rs.forM load
    | .call s f as ks => do
      checkKeywords ks
      checkCallee depth s f
      load f
      as.forM item
      ks.forM fun k => load k.value
    | .formatted _ v _ spec => do load v; spec.forM load
    | .joined _ es => es.forM load
    | .constant .. => pure ()
    | .attr s v n => do
      if store then forbidBinding n s
      load v
    | .subscript s v i => do
      if !store then checkSubscript depth s v i
      load v
      load i
    | .starred s _ =>
      if store then reject "starred assignment target must be in a list or tuple" s
      else reject "can't use starred expression here" s
    | .name s n => if store then forbidBinding n s else pure ()
    | .list s es | .tuple s es =>
      if store then do
        checkStars s es
        es.forM target
      else es.forM item
    | .slice _ a b d => do a.forM load; b.forM load; d.forM load

/-- A hint, which is left out where hints are not evaluated. -/
def hint (depth : Nat) (c : Context) (e : Expr) : M Unit :=
  if c.options.lazyHints then pure ()
  else match e with
    | .starred _ v => expr depth c false v
    | e => expr depth c false e

/-- The hints of parameters in the order in which they are evaluated. -/
def hintsOf : Params → List Expr
  | .mk po p r ko _ kr _ => (p ++ po ++ r.toList ++ ko ++ kr.toList).filterMap Param.hint

/-- Walk a statement, whose tree is at most `depth` deep. -/
def stmt : Nat → Context → Stmt → M Unit
  | 0, _, _ => pure ()
  | depth + 1, c, st =>
    let load := expr depth c false
    let store := expr depth c true
    let body (c : Context) (ss : List Stmt) : M Unit := ss.forM (stmt depth c)
    let looped : Context := { c with around := .loop :: c.around }
    match st with
    | .expr _ e => load e
    | .assign _ ts v => do load v; ts.forM store
    | .augmented _ t _ v => do
      match t with
      | .attr s _ n => forbidBinding n s
      | .name s n => forbidBinding n s
      | _ => pure ()
      match t with
      | .subscript _ b i => do load b; load i
      | .attr _ b _ => load b
      | _ => pure ()
      load v
    | .annotated _ t h v simple => do
      if v.isSome then do
        v.forM load
        store t
      match t with
      | .name s n =>
        forbidBinding n s
        if simple && c.kind ≠ .function then hint depth c h
      | .attr s b n =>
        forbidBinding n s
        if v.isNone then load b
      | .subscript _ b i => if v.isNone then do load b; load i
      | _ => pure ()
      if !simple && c.kind ≠ .function then hint depth c h
    | .ret s v => do
      if c.kind ≠ .function then reject "'return' outside function" s
      v.forM load
      let _ ← unwind false s c.around
    | .delete _ ts => ts.forM fun
      | .name s n => if n = "__debug__" then reject "cannot delete __debug__" s else pure ()
      | t => store t
    | .pass _ => pure ()
    | .breakLoop s => do
      if !(← unwind true s c.around) then reject "'break' outside loop" s
    | .nextLoop s => do
      if !(← unwind true s c.around) then reject "'continue' not properly in loop" s
    | .globals .. | .nonlocals .. => pure ()
    | .importing s ns => ns.forM fun a => forbidBinding (a.bound.getD a.name) s
    | .importFrom s m ns level => do
      if m = some "__future__" && level = 0 && s.start.line > c.futureLine then
        reject "from __future__ imports must occur at the beginning of the file" s
      ns.forM fun a => forbidBinding (a.bound.getD a.name) s
    | .raise _ e cause => do e.forM load; cause.forM load
    | .assert s t m => do
      let pairs := match t.folded? depth with
        | some (.tuple ts) => !ts.isEmpty
        | some _ => false
        | none => match t with
          | .tuple _ es => !es.isEmpty
          | _ => false
      if pairs then warn "assertion is always true, perhaps remove parentheses?" s
      if !c.options.dropAsserts then do
        load t
        m.forM load
    | .ite _ t b o => do load t; body c b; body c o
    | .whileLoop _ t b o => do load t; body looped b; body c o
    | .forLoop s isAsync t i b o => do
      if isAsync && !c.isAsync then
        reject (if c.kind = .function then "'async for' outside async function"
          else "'async for' outside function") s
      load i
      store t
      body looped b
      body c o
    | .tryBlock _ b hs o f star => do
      let again : M Unit := body c f
      let guarded : Context := if f.isEmpty then c else { c with around := .final again :: c.around }
      body guarded b
      body guarded o
      let last := hs.length
      hs.zipIdx.forM fun
        | (.mk s type n hb, k) => do
          if type.isNone && k + 1 < last then reject "default 'except:' must be last" s
          type.forM load
          n.forM fun n => forbidBinding n s
          body (if star then { guarded with around := .starHandler :: guarded.around } else guarded) hb
      if !f.isEmpty then do
        again
        again
    | .withBlock s isAsync items b => do
      if isAsync && !c.isAsync then
        reject (if c.kind = .function then "'async with' outside async function"
          else "'async with' outside function") s
      items.forM fun i => do load i.context; i.target.forM store
      body c b
    | .define s isAsync n ps b ds returns => do
      ds.forM load
      (Symbols.defaultsOf ps).forM load
      (hintsOf ps).forM (hint depth c)
      returns.forM (hint depth c)
      ps.all.forM fun p => forbidBinding p.name s
      body (c.inside .function isAsync false) b
      forbidBinding n s
    | .defineClass s n bases ks b ds => do
      ds.forM load
      body (c.inside .classBody false false) b
      checkKeywords ks
      bases.forM fun
        | .starred _ v => load v
        | e => load e
      ks.forM fun k => load k.value
      forbidBinding n s
    | .matchBlock _ e cases => do
      load e
      cases.forM fun
        | .mk _ g b => do
          g.forM load
          body c b

/-- Features that a source may ask for. -/
def knownFeatures : List String :=
  ["nested_scopes", "generators", "division", "absolute_import", "with_statement", "print_function",
   "unicode_literals", "barry_as_FLUFL", "generator_stop", "annotations"]

/-- A rejection whose end column is unknown. -/
def openEnded (text : String) (s : Span) : Rejection :=
  ⟨.grammar, text, s.start.line, s.start.byte + 1, s.start.line, 0⟩

/-- The imports from `__future__` at the top: the line of the last one, and the features they ask
for. -/
def futures : List Stmt → Nat × List String → Except Rejection (Nat × List String)
  | .importFrom s (some "__future__") ns 0 :: rest, (_, features) => do
    ns.forM fun a => do
      if a.name = "braces" then throw (openEnded "not a chance" s)
      if !knownFeatures.contains a.name then
        throw (openEnded ("future feature " ++ a.name ++ " is not defined") s)
    futures rest (s.start.line, features ++ ns.map (·.name))
  | _, found => pure found

/-- A text in front of all other statements. -/
def isDocumentation : Stmt → Bool
  | .expr _ (.constant _ (.text ..)) => true
  | _ => false

/-- Look for the imports from `__future__` behind a documentation text. -/
def futuresOf (body : List Stmt) : Except Rejection (Nat × List String) :=
  match body with
  | first :: rest => if isDocumentation first then futures rest (0, []) else futures body (0, [])
  | [] => pure (0, [])

end Check

/-- Check the statements of a source. Answers the warnings in order, with the rejection if there is
one. -/
def check (depth : Nat) (options : CheckOptions) (body : List Stmt) : Except Rejection Unit × List Warning :=
  match Check.futuresOf body with
  | .error r => (.error r, [])
  | .ok (line, features) =>
    let options := { options with lazyHints := options.lazyHints || features.contains "annotations" }
    match Symbols.check depth options.lazyHints body with
    | .error r => (.error r, [])
    | .ok () =>
      let c : Check.Context := ⟨.module, false, false, [], line, options⟩
      let (r, ws) := (body.forM (Check.stmt depth c)).run.run []
      (r, ws.reverse)

end Evalbox.Lang
