import Evalbox.Lang.Token

/-!
# Syntax trees of the snippet language

Expressions, patterns and statements, each with its span. Whether a name, an attribute or a
subscript is read, bound or deleted follows from where it stands and is not recorded.
-/

namespace Evalbox.Lang

inductive BinaryOp where
  | add | sub | mul | matMul | div | mod | pow | leftShift | rightShift | bitOr | bitXor | bitAnd
  | floorDiv
  deriving DecidableEq, Repr, Inhabited

inductive UnaryOp where
  | invert | not | plus | minus
  deriving DecidableEq, Repr, Inhabited

inductive CompareOp where
  | eq | notEq | less | lessEq | greater | greaterEq | is | isNot | isIn | notIn
  deriving DecidableEq, Repr, Inhabited

/-- Literal values. Text remembers whether it was written with the letter `u`. -/
inductive Constant where
  | none
  | bool (value : Bool)
  | ellipsis
  | int (value : Nat)
  | float (value : Float)
  | imaginary (value : Float)
  | text (value : String) (unicode : Bool)
  | bytes (value : List UInt8)
  deriving Repr, Inhabited

mutual

/-- Expressions. -/
inductive Expr where
  | boolean (span : Span) (conjunction : Bool) (values : List Expr)
  | named (span : Span) (target value : Expr)
  | binary (span : Span) (op : BinaryOp) (left right : Expr)
  | unary (span : Span) (op : UnaryOp) (operand : Expr)
  | function (span : Span) (params : Params) (body : Expr)
  | conditional (span : Span) (test body orelse : Expr)
  | dict (span : Span) (items : List DictItem)
  | set (span : Span) (items : List Expr)
  | listOf (span : Span) (item : Expr) (clauses : List Clause)
  | setOf (span : Span) (item : Expr) (clauses : List Clause)
  | dictOf (span : Span) (key value : Expr) (clauses : List Clause)
  | generator (span : Span) (item : Expr) (clauses : List Clause)
  | await (span : Span) (value : Expr)
  | yield (span : Span) (value : Option Expr)
  | yieldFrom (span : Span) (value : Expr)
  | compare (span : Span) (left : Expr) (ops : List CompareOp) (rights : List Expr)
  | call (span : Span) (callee : Expr) (args : List Expr) (keywords : List KeywordArg)
  | formatted (span : Span) (value : Expr) (conversion : Option Char) (spec : Option Expr)
  | joined (span : Span) (parts : List Expr)
  | constant (span : Span) (value : Constant)
  | attr (span : Span) (value : Expr) (name : String)
  | subscript (span : Span) (value index : Expr)
  | starred (span : Span) (value : Expr)
  | name (span : Span) (id : String)
  | list (span : Span) (items : List Expr)
  | tuple (span : Span) (items : List Expr)
  | slice (span : Span) (lower upper step : Option Expr)

/-- A keyword argument of a call; without a name it is a mapping to be spread. -/
inductive KeywordArg where
  | mk (span : Span) (name : Option String) (value : Expr)

/-- An entry of a dict display. -/
inductive DictItem where
  | pair (key value : Expr)
  | spread (value : Expr)

/-- A `for` clause of a comprehension with its conditions. -/
inductive Clause where
  | mk (isAsync : Bool) (target iter : Expr) (conditions : List Expr)

/-- A parameter with its hint. -/
inductive Param where
  | mk (span : Span) (name : String) (hint : Option Expr)

/-- The parameters of a function. `defaults` belong to the last positional parameters;
`keywordDefaults` has one entry for each keyword-only parameter. -/
inductive Params where
  | mk (positionalOnly positional : List Param) (rest : Option Param) (keywordOnly : List Param)
      (keywordDefaults : List (Option Expr)) (keywordRest : Option Param) (defaults : List Expr)

end

namespace Expr

def span : Expr → Span
  | boolean s .. | named s .. | binary s .. | unary s .. | function s .. | conditional s ..
  | dict s .. | set s .. | listOf s .. | setOf s .. | dictOf s .. | generator s .. | await s ..
  | yield s .. | yieldFrom s .. | compare s .. | call s .. | formatted s .. | joined s ..
  | constant s .. | attr s .. | subscript s .. | starred s .. | name s .. | list s ..
  | tuple s .. | slice s .. => s

instance : Inhabited Expr := ⟨.name default ""⟩

/-- The same expression with another span. -/
def withSpan (t : Span) : Expr → Expr
  | boolean _ a b => boolean t a b
  | named _ a b => named t a b
  | binary _ a b c => binary t a b c
  | unary _ a b => unary t a b
  | function _ a b => function t a b
  | conditional _ a b c => conditional t a b c
  | dict _ a => dict t a
  | set _ a => set t a
  | listOf _ a b => listOf t a b
  | setOf _ a b => setOf t a b
  | dictOf _ a b c => dictOf t a b c
  | generator _ a b => generator t a b
  | await _ a => await t a
  | yield _ a => yield t a
  | yieldFrom _ a => yieldFrom t a
  | compare _ a b c => compare t a b c
  | call _ a b c => call t a b c
  | formatted _ a b c => formatted t a b c
  | joined _ a => joined t a
  | constant _ a => constant t a
  | attr _ a b => attr t a b
  | subscript _ a b => subscript t a b
  | starred _ a => starred t a
  | name _ a => name t a
  | list _ a => list t a
  | tuple _ a => tuple t a
  | slice _ a b c => slice t a b c

end Expr

def KeywordArg.span : KeywordArg → Span
  | .mk s .. => s

def KeywordArg.name : KeywordArg → Option String
  | .mk _ n _ => n

def KeywordArg.value : KeywordArg → Expr
  | .mk _ _ v => v

def Param.name : Param → String
  | .mk _ n _ => n

def Param.span : Param → Span
  | .mk s _ _ => s

def Param.hint : Param → Option Expr
  | .mk _ _ a => a

namespace Params

def empty : Params := .mk [] [] none [] [] none []

instance : Inhabited Params := ⟨empty⟩

/-- All parameters, in the order in which a call binds them. -/
def all : Params → List Param
  | .mk po p r ko _ kr _ => po ++ p ++ ko ++ r.toList ++ kr.toList

end Params

/-- Patterns of a `match` statement. -/
inductive Pattern where
  | value (span : Span) (value : Expr)
  | singleton (span : Span) (value : Constant)
  | sequence (span : Span) (patterns : List Pattern)
  | mapping (span : Span) (keys : List Expr) (patterns : List Pattern) (rest : Option String)
  | classOf (span : Span) (cls : Expr) (patterns : List Pattern) (names : List String)
      (namedPatterns : List Pattern)
  | star (span : Span) (name : Option String)
  | capture (span : Span) (pattern : Option Pattern) (name : Option String)
  | either (span : Span) (patterns : List Pattern)
  deriving Inhabited

/-- An imported name with the name it is bound to, if that differs. -/
structure Alias where
  span : Span
  name : String
  bound : Option String
  deriving Repr, Inhabited

/-- A context of a `with` statement. -/
structure WithItem where
  context : Expr
  target : Option Expr
  deriving Inhabited

mutual

/-- Statements. -/
inductive Stmt where
  | expr (span : Span) (value : Expr)
  | assign (span : Span) (targets : List Expr) (value : Expr)
  | augmented (span : Span) (target : Expr) (op : BinaryOp) (value : Expr)
  | annotated (span : Span) (target hint : Expr) (value : Option Expr) (simple : Bool)
  | ret (span : Span) (value : Option Expr)
  | delete (span : Span) (targets : List Expr)
  | pass (span : Span)
  | breakLoop (span : Span)
  | nextLoop (span : Span)
  | globals (span : Span) (names : List String)
  | nonlocals (span : Span) (names : List String)
  | importing (span : Span) (names : List Alias)
  | importFrom (span : Span) (module : Option String) (names : List Alias) (level : Nat)
  | raise (span : Span) (exception cause : Option Expr)
  | assert (span : Span) (test : Expr) (message : Option Expr)
  | ite (span : Span) (test : Expr) (body orelse : List Stmt)
  | whileLoop (span : Span) (test : Expr) (body orelse : List Stmt)
  | forLoop (span : Span) (isAsync : Bool) (target iter : Expr) (body orelse : List Stmt)
  | tryBlock (span : Span) (body : List Stmt) (handlers : List Handler) (orelse final : List Stmt)
      (star : Bool)
  | withBlock (span : Span) (isAsync : Bool) (items : List WithItem) (body : List Stmt)
  | define (span : Span) (isAsync : Bool) (name : String) (params : Params) (body : List Stmt)
      (decorators : List Expr) (returns : Option Expr)
  | defineClass (span : Span) (name : String) (bases : List Expr) (keywords : List KeywordArg)
      (body : List Stmt) (decorators : List Expr)
  | matchBlock (span : Span) (subject : Expr) (cases : List MatchCase)

/-- An `except` clause. -/
inductive Handler where
  | mk (span : Span) (type : Option Expr) (name : Option String) (body : List Stmt)

/-- A `case` clause. -/
inductive MatchCase where
  | mk (pattern : Pattern) (guard : Option Expr) (body : List Stmt)

end

namespace Stmt

def span : Stmt → Span
  | expr s .. | assign s .. | augmented s .. | annotated s .. | ret s .. | delete s .. | pass s
  | breakLoop s | nextLoop s | globals s .. | nonlocals s .. | importing s .. | importFrom s ..
  | raise s .. | assert s .. | ite s .. | whileLoop s .. | forLoop s .. | tryBlock s .. | withBlock s ..
  | define s .. | defineClass s .. | matchBlock s .. => s

instance : Inhabited Stmt := ⟨.pass default⟩

end Stmt

end Evalbox.Lang
