import Evalbox.Lang.Tree
import Evalbox.Text.Dotted

/-!
# Symbol tables

`Symbols.check` walks the statements of a source, notes for each block how every name is used in it,
and then resolves the names that a block takes from the blocks around it. It rejects what the rules
of names forbid: parameters of one name, a `global` or `nonlocal` declaration behind a use, a
`nonlocal` name that no function around binds, a star import outside the module, and assignments and
yields in places that have no block to hold them.

The order of the walk decides which of several faults is reported, so it follows the order in which
the parts of a construct are declared, not the order in which they run.
-/

namespace Evalbox.Lang

/-- A rejection at a span, whose columns are reported in bytes. -/
def Rejection.atSpan (text : String) (s : Span) : Rejection :=
  ⟨.grammar, text, s.start.line, s.start.byte + 1, s.stop.line, s.stop.byte + 1⟩

/-- The name under which a private name of a class is stored. -/
def privateName (cls : Option String) (name : String) : String :=
  match cls with
  | none => name
  | some c =>
    let bare := c.toList.dropWhile (· = '_')
    if name.startsWith "__" && !name.endsWith "__" && !name.contains '.' && !bare.isEmpty then
      "_" ++ String.ofList bare ++ name
    else name

namespace Symbols

inductive BlockKind where
  | module
  | function
  | classBody
  | hint
  deriving DecidableEq, Repr

/-- Comprehensions are blocks too. -/
inductive ComprehensionKind where
  | list
  | set
  | dict
  | generator
  deriving DecidableEq, Repr

/-- How a block uses a name. -/
structure Flags where
  isGlobal : Bool := false
  isLocal : Bool := false
  isParam : Bool := false
  isNonlocal : Bool := false
  isUsed : Bool := false
  isHinted : Bool := false
  isIterated : Bool := false
  deriving DecidableEq, Repr, Inhabited

def Flags.join (a b : Flags) : Flags :=
  ⟨a.isGlobal || b.isGlobal, a.isLocal || b.isLocal, a.isParam || b.isParam,
   a.isNonlocal || b.isNonlocal, a.isUsed || b.isUsed, a.isHinted || b.isHinted,
   a.isIterated || b.isIterated⟩

/-- A block with its names in the order of their first appearance, the declarations in it, and the
blocks inside it. -/
inductive Block where
  | mk (kind : BlockKind) (comprehension : Option ComprehensionKind)
      (symbols : List (String × Flags)) (directives : List (String × Span)) (children : List Block)

/-- A block while it is being walked. `iterTarget` is set on the targets of a comprehension, and
`iterDepth` counts the iterables around. `cls` is the innermost class. -/
structure Open where
  kind : BlockKind
  comprehension : Option ComprehensionKind
  cls : Option String
  symbols : List (String × Flags) := []
  directives : List (String × Span) := []
  children : List Block := []
  iterTarget : Bool := false
  iterDepth : Nat := 0

/-- The state of a walk: the open blocks, innermost first, and whether hints are blocks. -/
structure Walk where
  blocks : List Open
  lazyHints : Bool

abbrev M := StateT Walk (Except Rejection)

def reject {α : Type} (text : String) (s : Span) : M α := throw (Rejection.atSpan text s)

def current : M Open := do
  match (← get).blocks with
  | b :: _ => return b
  | [] => return ⟨.module, none, none, [], [], [], false, 0⟩

def modifyCurrent (f : Open → Open) : M Unit :=
  modify fun w => match w.blocks with
    | b :: rest => { w with blocks := f b :: rest }
    | [] => w

def Open.flags (b : Open) (name : String) : Flags :=
  (b.symbols.lookup (privateName b.cls name)).getD {}

/-- Put new flags on a name, keeping its place. -/
def setFlags (symbols : List (String × Flags)) (name : String) (f : Flags) : List (String × Flags) :=
  if symbols.any (·.1 = name) then symbols.map fun (n, g) => if n = name then (n, f) else (n, g)
  else symbols ++ [(name, f)]

/-- Note a use of a name in a block. -/
def noteIn (b : Open) (name : String) (f : Flags) (s : Span) : Except Rejection Open := do
  let key := privateName b.cls name
  let old := (b.symbols.lookup key).getD {}
  if f.isParam && old.isParam then
    throw (Rejection.atSpan ("duplicate argument '" ++ name ++ "' in function definition") s)
  let new := old.join f
  if b.iterTarget && (new.isGlobal || new.isNonlocal) then
    throw (Rejection.atSpan
      ("comprehension inner loop cannot rebind assignment expression target '" ++ name ++ "'") s)
  let new := if b.iterTarget then { new with isIterated := true } else new
  return { b with symbols := setFlags b.symbols key new }

def note (name : String) (f : Flags) (s : Span) : M Unit := do
  let b ← current
  let b' ← noteIn b name f s
  modifyCurrent fun _ => b'

def declare (name : String) (s : Span) : M Unit :=
  modifyCurrent fun b => { b with directives := b.directives ++ [(privateName b.cls name, s)] }

/-- Walk a block inside the current one. -/
def inBlock (kind : BlockKind) (comprehension : Option ComprehensionKind) (cls : Option String)
    (body : M Unit) : M Unit := do
  modify fun w => { w with blocks := ⟨kind, comprehension, cls, [], [], [], false, 0⟩ :: w.blocks }
  body
  modify fun w => match w.blocks with
    | b :: p :: rest =>
      let done := Block.mk b.kind b.comprehension b.symbols b.directives b.children
      { w with blocks := { p with children := p.children ++ [done] } :: rest }
    | _ => w

/-- Refuse an expression in the block of a hint. -/
def refuseInHint (what : String) (s : Span) : M Unit := do
  if (← current).kind = .hint then reject ("'" ++ what ++ "' can not be used within an annotation") s

def ComprehensionKind.describe : ComprehensionKind → String
  | .list => "list comprehension"
  | .set => "set comprehension"
  | .dict => "dict comprehension"
  | .generator => "generator expression"

/-- Bind the target of a named expression inside a comprehension: in the nearest block around that
is none. -/
def extendNamed (name : String) (s : Span) : M Unit := do
  let outer := (← get).blocks
  let rec find : List Open → List Open → M Unit
    | before, b :: rest =>
      if b.comprehension.isSome then
        let f := b.flags name
        if f.isIterated && f.isLocal then
          reject ("assignment expression cannot rebind comprehension iteration variable '" ++ name ++ "'") s
        else find (before ++ [b]) rest
      else match b.kind with
        | .classBody | .hint =>
          reject "assignment expression within a comprehension cannot be used in a class body" s
        | .function => do
          if (b.flags name).isGlobal then note name { isGlobal := true } s
          else note name { isNonlocal := true } s
          declare name s
          bindAt before.length { isLocal := true }
        | .module => do
          note name { isGlobal := true } s
          declare name s
          bindAt before.length { isGlobal := true }
    | _, [] => pure ()
  find [] outer
where
  /-- Note the name in the `i`-th block from the inside. -/
  bindAt (i : Nat) (f : Flags) : M Unit := do
    let blocks := (← get).blocks
    match blocks[i]? with
    | none => pure ()
    | some b =>
      let b' ← noteIn b name f s
      modify fun w => { w with blocks := w.blocks.set i b' }

/-- Note the name of an import. -/
def importName (a : Alias) : M Unit := do
  if a.name = "*" then
    if (← current).kind ≠ .module then reject "import * only allowed at module level" a.span
  else
    let bound := a.bound.getD (Dotted.root a.name)
    note bound { isLocal := true } a.span

/-- A `global` or `nonlocal` declaration, which must come before every use of its names. -/
def directive (isGlobal : Bool) (names : List String) (s : Span) : M Unit :=
  let word := if isGlobal then "global" else "nonlocal"
  names.forM fun n => do
    let f := (← current).flags n
    if f.isParam then reject ("name '" ++ n ++ "' is parameter and " ++ word) s
    if f.isUsed then reject ("name '" ++ n ++ "' is used prior to " ++ word ++ " declaration") s
    if f.isHinted then reject ("annotated name '" ++ n ++ "' can't be " ++ word) s
    if f.isLocal then reject ("name '" ++ n ++ "' is assigned to before " ++ word ++ " declaration") s
    note n (if isGlobal then { isGlobal := true } else { isNonlocal := true }) s
    declare n s

/-- Note the parameters of a function, which must differ. -/
def noteParams (ps : Params) : M Unit :=
  ps.all.forM fun p => note p.name { isParam := true } p.span

/-- The defaults of parameters, positional ones first. -/
def defaultsOf : Params → List Expr
  | .mk _ _ _ _ kd _ ds => ds ++ kd.filterMap id

/-- The hints of parameters, in the order in which they are walked. -/
def hintsOf : Params → List Expr
  | .mk po p r ko _ kr _ => (po ++ p ++ r.toList ++ kr.toList ++ ko).filterMap Param.hint

/-- Walk an expression, whose tree is at most `depth` deep; `store` says that it is a target. -/
def expr : Nat → Bool → Expr → M Unit
  | 0, _, _ => pure ()
  | depth + 1, store, e =>
    let load := expr depth false
    let all (es : List Expr) : M Unit := es.forM load
    let comprehension (kind : ComprehensionKind) (items : List Expr) (cs : List Clause) : M Unit :=
      match cs with
      | [] => pure ()
      | .mk _ target iter conditions :: rest => do
        let iterable (i : Expr) : M Unit := do
          modifyCurrent fun b => { b with iterDepth := b.iterDepth + 1 }
          load i
          modifyCurrent fun b => { b with iterDepth := b.iterDepth - 1 }
        let targets (t : Expr) : M Unit := do
          modifyCurrent fun b => { b with iterTarget := true }
          expr depth true t
          modifyCurrent fun b => { b with iterTarget := false }
        iterable iter
        inBlock .function (some kind) (← current).cls do
          note ".0" { isParam := true } e.span
          targets target
          all conditions
          rest.forM fun
            | .mk _ t i cs => do
              targets t
              iterable i
              all cs
          all items
    match e with
    | .boolean _ _ es => all es
    | .named s target value => do
      refuseInHint "named expression" s
      let b ← current
      if b.iterDepth > 0 then
        reject "assignment expression cannot be used in a comprehension iterable expression" s
      if b.comprehension.isSome then
        match target with
        | .name ns n => extendNamed n ns
        | _ => pure ()
      load value
      expr depth true target
    | .binary _ _ l r => do load l; load r
    | .unary _ _ a => load a
    | .function _ ps body => do
      all (defaultsOf ps)
      inBlock .function none (← current).cls do
        noteParams ps
        load body
    | .conditional _ t b o => do load t; load b; load o
    | .dict _ items => do
      items.forM fun
        | .pair k _ => load k
        | .spread _ => pure ()
      items.forM fun
        | .pair _ v => load v
        | .spread v => load v
    | .set _ es => all es
    | .listOf _ i cs => comprehension .list [i] cs
    | .setOf _ i cs => comprehension .set [i] cs
    | .dictOf _ k v cs => comprehension .dict [v, k] cs
    | .generator _ i cs => comprehension .generator [i] cs
    | .await s v => do
      refuseInHint "await expression" s
      load v
    | .yield s v => do
      refuseInHint "yield expression" s
      v.forM load
      yieldHere s
    | .yieldFrom s v => do
      refuseInHint "yield expression" s
      load v
      yieldHere s
    | .compare _ l _ rs => do load l; all rs
    | .call _ f as ks => do
      load f
      all as
      ks.forM fun k => load k.value
    | .formatted _ v _ spec => do load v; spec.forM load
    | .joined _ es => all es
    | .constant .. => pure ()
    | .attr _ v _ => load v
    | .subscript _ v i => do load v; load i
    | .starred _ v => expr depth store v
    | .name s n =>
      if store then note n { isLocal := true } s
      else do
        note n { isUsed := true } s
        if n = "super" && (← current).kind = .function then note "__class__" { isUsed := true } s
    | .list _ es => es.forM (expr depth store)
    | .tuple _ es => es.forM (expr depth store)
    | .slice _ a b c => do a.forM load; b.forM load; c.forM load
where
  /-- A yield makes its block a generator, which a comprehension cannot be. -/
  yieldHere (s : Span) : M Unit := do
    match (← current).comprehension with
    | some kind => reject ("'yield' inside " ++ kind.describe) s
    | none => pure ()

/-- Walk hints, in a block of their own if they are not evaluated. -/
def hints (depth : Nat) (es : List Expr) : M Unit := do
  if (← get).lazyHints then inBlock .hint none (← current).cls (es.forM (expr depth false))
  else es.forM (expr depth false)

/-- Walk a pattern. -/
def pattern : Nat → Pattern → M Unit
  | 0, _ => pure ()
  | depth + 1, p =>
    match p with
    | .value _ v => expr depth false v
    | .singleton .. => pure ()
    | .sequence _ ps => ps.forM (pattern depth)
    | .mapping s keys ps rest => do
      keys.forM (expr depth false)
      ps.forM (pattern depth)
      rest.forM fun n => note n { isLocal := true } s
    | .classOf _ c ps _ ks => do
      expr depth false c
      ps.forM (pattern depth)
      ks.forM (pattern depth)
    | .star s n => n.forM fun n => note n { isLocal := true } s
    | .capture s p n => do
      p.forM (pattern depth)
      n.forM fun n => note n { isLocal := true } s
    | .either _ ps => ps.forM (pattern depth)

/-- Walk a statement, whose tree is at most `depth` deep. -/
def stmt : Nat → Stmt → M Unit
  | 0, _ => pure ()
  | depth + 1, st =>
    let load := expr depth false
    let store := expr depth true
    let body (ss : List Stmt) : M Unit := ss.forM (stmt depth)
    match st with
    | .expr _ e => load e
    | .assign _ ts v => do ts.forM store; load v
    | .augmented _ t _ v => do store t; load v
    | .annotated s t h v simple => do
      match t with
      | .name ns n =>
        let b ← current
        let f := b.flags n
        if (f.isGlobal || f.isNonlocal) && b.kind ≠ .module && simple then
          reject ("annotated name '" ++ n ++ "' can't be " ++ (if f.isGlobal then "global" else "nonlocal")) s
        if simple then note n { isHinted := true, isLocal := true } ns
        if v.isSome then note n { isLocal := true } ns
      | _ => store t
      hints depth [h]
      v.forM load
    | .ret _ v => v.forM load
    | .delete _ ts => ts.forM store
    | .pass _ | .breakLoop _ | .nextLoop _ => pure ()
    | .globals s ns => directive true ns s
    | .nonlocals s ns => directive false ns s
    | .importing _ ns | .importFrom _ _ ns _ => ns.forM importName
    | .raise _ e c => do e.forM load; c.forM load
    | .assert _ t m => do load t; m.forM load
    | .ite _ t b o | .whileLoop _ t b o => do load t; body b; body o
    | .forLoop _ _ t i b o => do store t; load i; body b; body o
    | .tryBlock _ b hs o f _ => do
      body b
      body o
      hs.forM fun
        | .mk s type n hb => do
          type.forM load
          n.forM fun n => note n { isLocal := true } s
          body hb
      body f
    | .withBlock _ _ items b => do
      items.forM fun i => do load i.context; i.target.forM store
      body b
    | .define s _ n ps b ds returns => do
      note n { isLocal := true } s
      (defaultsOf ps).forM load
      hints depth (hintsOf ps)
      returns.forM fun r => hints depth [r]
      ds.forM load
      inBlock .function none (← current).cls do
        noteParams ps
        body b
    | .defineClass s n bases ks b ds => do
      note n { isLocal := true } s
      bases.forM load
      ks.forM fun k => load k.value
      ds.forM load
      inBlock .classBody none (some n) (body b)
    | .matchBlock _ e cases => do
      load e
      cases.forM fun
        | .mk p g b => do
          pattern depth p
          g.forM load
          body b

/-- Resolve the names of a block, where `bound` holds the names that the functions around bind; none
at the top. -/
def resolve : Nat → Option (List String) → Block → Except Rejection Unit
  | 0, _, _ => pure ()
  | depth + 1, bound, .mk kind _ symbols directives children => do
    let at_ {α : Type} (name text : String) : Except Rejection α :=
      throw (Rejection.atSpan text ((directives.lookup name).getD default))
    let mut known := bound
    let mut locals : List String := []
    for (n, f) in symbols do
      if f.isGlobal then
        if f.isNonlocal then at_ n ("name '" ++ n ++ "' is nonlocal and global")
        known := known.map (·.filter (· ≠ n))
      else if f.isNonlocal then
        match known with
        | none => at_ n "nonlocal declaration not allowed at module level"
        | some names => if !names.contains n then at_ n ("no binding for nonlocal '" ++ n ++ "' found")
      else if f.isLocal || f.isParam then locals := n :: locals
    let inner := match kind with
      | .function => locals ++ known.getD []
      | .classBody => "__class__" :: known.getD []
      | _ => known.getD []
    children.forM (resolve depth (some inner))

/-- Check the names of a source. `lazyHints` says that hints are not evaluated. -/
def check (depth : Nat) (lazyHints : Bool) (body : List Stmt) : Except Rejection Unit := do
  let start : Walk := ⟨[⟨.module, none, none, [], [], [], false, 0⟩], lazyHints⟩
  let (_, w) ← (body.forM (stmt depth)).run start
  match w.blocks with
  | b :: _ => resolve depth none (.mk b.kind b.comprehension b.symbols b.directives b.children)
  | [] => pure ()

end Symbols

end Evalbox.Lang
