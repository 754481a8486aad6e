import Evalbox.Lang.Symbols

/-!
# Names that a block binds

The names that the statements of a block bind are the variables of that block, but for those that it
declares global or takes from a block around. Comprehensions have variables of their own, but a named
expression inside one binds in the block around. `yields` tells generators from plain functions.
-/

namespace Evalbox.Lang

/-- The parts of a comprehension that run inside it. -/
def Clause.parts : Clause → List Expr
  | .mk _ target iter conditions => target :: iter :: conditions

/-- The defaults of parameters, which belong to the block around. -/
def Params.defaultParts : Params → List Expr
  | .mk _ _ _ _ kds _ ds => ds ++ kds.filterMap id

namespace Expr

/-- The direct parts of an expression that belong to the same block. The items of a comprehension are
among them. -/
def parts : Expr → List Expr
  | boolean _ _ xs => xs
  | named _ a b => [a, b]
  | binary _ _ a b => [a, b]
  | unary _ _ a => [a]
  | function _ ps _ => ps.defaultParts
  | conditional _ a b c => [a, b, c]
  | dict _ xs => xs.flatMap fun x => match x with
    | .pair a b => [a, b]
    | .spread a => [a]
  | set _ xs => xs
  | listOf _ a cs | setOf _ a cs | generator _ a cs => a :: cs.flatMap Clause.parts
  | dictOf _ a b cs => a :: b :: cs.flatMap Clause.parts
  | await _ a => [a]
  | yield _ a => a.toList
  | yieldFrom _ a => [a]
  | compare _ a _ bs => a :: bs
  | call _ f as ks => f :: as ++ ks.map KeywordArg.value
  | formatted _ a _ s => a :: s.toList
  | joined _ xs => xs
  | constant .. => []
  | attr _ a _ => [a]
  | subscript _ a b => [a, b]
  | starred _ a => [a]
  | name .. => []
  | list _ xs | tuple _ xs => xs
  | slice _ a b c => a.toList ++ b.toList ++ c.toList

/-- The names that named expressions bind. -/
def namedIn : Nat → Expr → List String
  | 0, _ => []
  | depth + 1, e =>
    (match e with
      | named _ (name _ id) _ => [id]
      | _ => []) ++ e.parts.flatMap (namedIn depth)

/-- Whether an expression hands out items of a generator. Comprehensions cannot. -/
def yields : Nat → Expr → Bool
  | 0, _ => false
  | depth + 1, e =>
    match e with
    | yield .. | yieldFrom .. => true
    | e => e.parts.any (yields depth)

/-- The names that an expression binds when something is assigned to it. -/
def targetNames : Nat → Expr → List String
  | 0, _ => []
  | depth + 1, e =>
    match e with
    | name _ id => [id]
    | starred _ a => targetNames depth a
    | list _ xs | tuple _ xs => xs.flatMap (targetNames depth)
    | _ => []

end Expr

namespace Stmt

/-- The expressions of a statement itself. -/
def exprs : Stmt → List Expr
  | expr _ v => [v]
  | assign _ ts v => v :: ts
  | augmented _ t _ v => [t, v]
  | annotated _ t h v _ => t :: h :: v.toList
  | ret _ v => v.toList
  | delete _ ts => ts
  | raise _ e c => e.toList ++ c.toList
  | assert _ t m => t :: m.toList
  | ite _ t _ _ => [t]
  | whileLoop _ t _ _ => [t]
  | forLoop _ _ t i _ _ => [t, i]
  | tryBlock _ _ hs _ _ _ => hs.filterMap fun h => match h with
    | .mk _ t _ _ => t
  | withBlock _ _ items _ => items.flatMap fun i => i.context :: i.target.toList
  | define _ _ _ ps _ ds r => ds ++ ps.defaultParts ++ (ps.all.filterMap Param.hint) ++ r.toList
  | defineClass _ _ bs ks _ ds => ds ++ bs ++ ks.map KeywordArg.value
  | matchBlock _ s cs => s :: cs.filterMap fun c => match c with
    | .mk _ g _ => g
  | _ => []

/-- The blocks of statements inside a statement that belong to the same block of names. -/
def inner : Stmt → List Stmt
  | ite _ _ b o => b ++ o
  | whileLoop _ _ b o => b ++ o
  | forLoop _ _ _ _ b o => b ++ o
  | tryBlock _ b hs o f _ => b ++ hs.flatMap (fun h => match h with
    | .mk _ _ _ hb => hb) ++ o ++ f
  | withBlock _ _ _ b => b
  | matchBlock _ _ cs => cs.flatMap fun c => match c with
    | .mk _ _ b => b
  | _ => []

end Stmt

/-- The names that a pattern binds. -/
def Pattern.boundNames : Nat → Pattern → List String
  | 0, _ => []
  | depth + 1, p =>
    match p with
    | .value .. | .singleton .. => []
    | .sequence _ ps | .either _ ps => ps.flatMap (boundNames depth)
    | .mapping _ _ ps rest => ps.flatMap (boundNames depth) ++ rest.toList
    | .classOf _ _ ps _ qs => (ps ++ qs).flatMap (boundNames depth)
    | .star _ n => n.toList
    | .capture _ p n => (p.map (boundNames depth)).getD [] ++ n.toList

/-- The name under which an import is bound. -/
def Alias.boundName (a : Alias) : String := a.bound.getD ((a.name.splitOn ".").headD a.name)

namespace Stmt

/-- The names that a statement binds, with those inside it. -/
def boundNames : Nat → Stmt → List String
  | 0, _ => []
  | depth + 1, s =>
    let targets : List Expr := match s with
      | assign _ ts _ | delete _ ts => ts
      | augmented _ t _ _ => [t]
      | annotated _ t _ _ true => [t]
      | forLoop _ _ t _ _ _ => [t]
      | withBlock _ _ items _ => items.filterMap WithItem.target
      | _ => []
    let plain : List String := match s with
      | importing _ as | importFrom _ _ as _ => as.map Alias.boundName
      | define _ _ n .. => [n]
      | defineClass _ n .. => [n]
      | tryBlock _ _ hs _ _ _ => hs.filterMap fun h => match h with
        | .mk _ _ n _ => n
      | matchBlock _ _ cs => cs.flatMap fun c => match c with
        | .mk p _ _ => p.boundNames depth
      | _ => []
    targets.flatMap (Expr.targetNames depth) ++ plain ++ s.exprs.flatMap (Expr.namedIn depth) ++
      s.inner.flatMap (boundNames depth)

/-- The names that a statement declares to be those of the module, with those inside it. -/
def globalNames : Nat → Stmt → List String
  | 0, _ => []
  | depth + 1, s =>
    match s with
    | globals _ ns => ns
    | s => s.inner.flatMap (globalNames depth)

/-- The names that a statement declares to be those of a block around, with those inside it. -/
def nonlocalNames : Nat → Stmt → List String
  | 0, _ => []
  | depth + 1, s =>
    match s with
    | nonlocals _ ns => ns
    | s => s.inner.flatMap (nonlocalNames depth)

/-- Whether a statement hands out items of a generator. -/
def yields : Nat → Stmt → Bool
  | 0, _ => false
  | depth + 1, s => s.exprs.any (Expr.yields depth) || s.inner.any (yields depth)

end Stmt

/-- Deeper than any syntax tree of a snippet. -/
def treeBound : Nat := 1000

/-- The variables of a block, and the names that it declares global. -/
def blockNames (params : List String) (body : List Stmt) : List String × List String :=
  let globals := body.flatMap (Stmt.globalNames treeBound)
  let outer := globals ++ body.flatMap (Stmt.nonlocalNames treeBound)
  ((params ++ body.flatMap (Stmt.boundNames treeBound)).filter (!outer.contains ·), globals)

end Evalbox.Lang
