import Evalbox.Lang.Parse.Parameters
import Evalbox.Lang.Parse.Patterns

/-!
# Statements

The grammar of statements and blocks.
-/

namespace Evalbox.Lang.P

open Parse

variable (g : Grammar)

/-! ## Simple statements -/

/-- Operators that also assign. -/
def assigningOperator : P BinaryOp :=
  operator [(.plusEqual, .add), (.minusEqual, .sub), (.starEqual, .mul), (.atEqual, .matMul),
    (.slashEqual, .div), (.percentEqual, .mod), (.amperEqual, .bitAnd), (.vbarEqual, .bitOr),
    (.circumflexEqual, .bitXor), (.leftShiftEqual, .leftShift), (.rightShiftEqual, .rightShift),
    (.doubleStarEqual, .pow), (.doubleSlashEqual, .floorDiv)]

/-- What may stand on the right of an assignment. -/
def assigned : P Expr := yieldExpr g <|> starExpressions g

/-- A target of a hint that is a list or a tuple. -/
def annotatedDisplay : P Expr :=
  list g <|> tuple g <|>
  (do
    let _ ← symbol .lpar
    let e ← g .annotatedTarget
    let _ ← symbol .rpar
    return e)

def explainAssignment : P Stmt :=
  (do
    let a ← g .annotatedTarget
    let _ ← colon
    let _ ← g .expression
    rejectSpan a.span ("only single target (not " ++ a.describe ++ ") can be annotated")) <|>
  (do
    let a ← starNamedExpression g
    let _ ← comma
    let _ ← (starNamedExpressions g).many
    let _ ← colon
    let _ ← g .expression
    rejectSpan a.span "only single target (not tuple) can be annotated") <|>
  (do
    let a ← g .expression
    let _ ← colon
    let _ ← g .expression
    rejectSpan a.span "illegal target for annotation") <|>
  (do
    let _ ← (do let _ ← starTargets g; symbol .equal : P Span).many
    let a ← starExpressions g
    let _ ← symbol .equal
    rejectTarget .assigned a) <|>
  (do
    let _ ← (do let _ ← starTargets g; symbol .equal : P Span).many
    let a ← yieldExpr g
    let _ ← symbol .equal
    rejectSpan a.span "assignment to yield expression not possible") <|>
  (do
    let a ← starExpressions g
    let _ ← assigningOperator
    let _ ← assigned g
    rejectSpan a.span ("'" ++ a.describe ++ "' is an illegal expression for augmented assignment"))

def assignment : P Stmt := rule (
  (spanned do
    let target ← nameExpr
    let _ ← colon
    let hint ← g .expression
    let value ← (do let _ ← symbol .equal; assigned g : P Expr).optional
    return fun sp => .annotated sp target hint value true) <|>
  (spanned do
    let target ← (do
        let _ ← symbol .lpar
        let e ← g .singleTarget
        let _ ← symbol .rpar
        return e) <|> memberTarget g
    let _ ← colon
    let hint ← g .expression
    let value ← (do let _ ← symbol .equal; assigned g : P Expr).optional
    return fun sp => .annotated sp target hint value false) <|>
  (spanned do
    let targets ← many1 (do
      let e ← starTargets g
      let _ ← symbol .equal
      return e)
    let value ← assigned g
    notAhead (symbol .equal)
    return fun sp => .assign sp targets value) <|>
  (spanned do
    let target ← g .singleTarget
    let op ← assigningOperator
    committed do
      let value ← assigned g
      return fun sp => .augmented sp target op value) <|>
  explaining (explainAssignment g))

/-- A dotted name. -/
def dottedName : P String := do
  let (first, _) ← name
  let more ← (do let _ ← symbol .dot; let (n, _) ← name; return n : P String).many
  return ".".intercalate (first :: more)

/-- The name that an import is bound to. -/
def boundName : P (Option String) := (do
  let _ ← word .as_
  let (n, _) ← name
  return n : P String).optional

def importedModule : P Alias := spanned do
  let n ← dottedName
  let bound ← boundName
  return fun sp => ⟨sp, n, bound⟩

def importedName : P Alias := spanned do
  let (n, _) ← name
  let bound ← boundName
  return fun sp => ⟨sp, n, bound⟩

def importedNames : P (List Alias) :=
  (do
    let _ ← symbol .lpar
    let ns ← sepBy1 importedName comma
    let _ ← comma.optional
    let _ ← symbol .rpar
    return ns) <|>
  (do
    let ns ← sepBy1 importedName comma
    notAhead comma
    return ns) <|>
  (do
    let s ← symbol .star
    return [⟨s, "*", none⟩]) <|>
  explaining (do
    let _ ← sepBy1 importedName comma
    let _ ← comma
    lexeme .newline
    rejectLast "trailing comma not allowed without surrounding parentheses")

/-- Leading dots of a relative import. -/
def dots : P Nat := (do let _ ← symbol .dot; return 1) <|> (do let _ ← symbol .ellipsis; return 3)

def importStatement : P Stmt :=
  (spanned do
    let _ ← word .import_
    let ns ← sepBy1 importedModule comma
    return fun sp => .importing sp ns) <|>
  (spanned do
    let _ ← word .from_
    let ds ← dots.many
    let m ← dottedName
    let _ ← word .import_
    let ns ← rule importedNames
    return fun sp => .importFrom sp (some m) ns (ds.foldl (· + ·) 0)) <|>
  (spanned do
    let _ ← word .from_
    let ds ← many1 dots
    let _ ← word .import_
    let ns ← rule importedNames
    return fun sp => .importFrom sp none ns (ds.foldl (· + ·) 0))

def names : P (List String) := do
  let ns ← sepBy1 name comma
  return ns.map (·.1)

def deleteStatement : P Stmt :=
  (spanned do
    let _ ← word .del_
    let ts ← deleteTargets g
    ahead ((do let _ ← symbol .semi) <|> lexeme .newline)
    return fun sp => .delete sp ts) <|>
  explaining (do
    let _ ← word .del_
    let a ← starExpressions g
    rejectTarget .deleted a)

def simpleStatement : P Stmt :=
  assignment g <|>
  (spanned do
    notAhead layout
    let e ← starExpressions g
    return fun sp => .expr sp e) <|>
  (spanned do
    let t ← token
    match t.lexeme with
    | .word .return_ =>
      advance
      let e ← (starExpressions g).optional
      return fun sp => .ret sp e
    | .word .raise_ =>
      advance
      match ← (g .expression).optional with
      | none => return fun sp => .raise sp none none
      | some e =>
        let cause ← (do let _ ← word .from_; g .expression : P Expr).optional
        return fun sp => .raise sp (some e) cause
    | .word .pass_ =>
      advance
      return fun sp => .pass sp
    | .word .assert_ =>
      advance
      let test ← g .expression
      let message ← (do let _ ← comma; g .expression : P Expr).optional
      return fun sp => .assert sp test message
    | .word .break_ =>
      advance
      return fun sp => .breakLoop sp
    | .word .continue_ =>
      advance
      return fun sp => .nextLoop sp
    | .word .global_ =>
      advance
      let ns ← names
      return fun sp => .globals sp ns
    | .word .nonlocal_ =>
      advance
      let ns ← names
      return fun sp => .nonlocals sp ns
    | .word .yield_ =>
      let e ← yieldExpr g
      return fun sp => .expr sp e
    | _ => fail) <|>
  (do
    ahead ((do let _ ← word .import_) <|> (do let _ ← word .from_))
    importStatement) <|>
  (do
    ahead (word .del_)
    rule (deleteStatement g))

/-- Simple statements on one line. -/
def simpleStatements : P (List Stmt) :=
  (do
    let s ← g .simpleStatement
    notAhead (symbol .semi)
    lexeme .newline
    return [s]) <|>
  (do
    let ss ← sepBy1 (g .simpleStatement) (symbol .semi)
    let _ ← (symbol .semi).optional
    lexeme .newline
    return ss)

/-! ## Blocks -/

/-- A block: statements on lines of their own, or on the same line. -/
def block : P (List Stmt) :=
  (do
    lexeme .newline
    lexeme .indent
    let ss ← g .statements
    lexeme .dedent
    return ss) <|>
  simpleStatements g <|>
  explaining (do
    lexeme .newline
    notAhead (lexeme .indent)
    rejectLastAs .indentation "expected an indented block")

/-- Reject a missing block behind what began at `a`. -/
def rejectMissingBlock {α : Type} (what : String) (a : Span) : P α :=
  rejectLastAs .indentation
    ("expected an indented block after " ++ what ++ " on line " ++ toString a.start.line)

/-- A header whose line ends without a colon, or whose block is missing. -/
def explainHeader {α : Type} (what : String) (header : P Span) : P α :=
  (do
    let _ ← header
    lexeme .newline
    rejectLast "expected ':'") <|>
  (do
    let a ← header
    let _ ← colon
    lexeme .newline
    notAhead (lexeme .indent)
    rejectMissingBlock what a)

/-- A header with its colon but without a block. -/
def explainBlock {α : Type} (what : String) (header : P Span) : P α := do
  let a ← header
  let _ ← colon
  lexeme .newline
  notAhead (lexeme .indent)
  rejectMissingBlock what a

/-! ## Compound statements -/

def elseBlock : P (List Stmt) :=
  explaining (explainBlock "'else' statement" (word .else_)) <|>
  (do
    let _ ← word .else_
    let _ ← forced .colon ":"
    g .block)

/-- A condition with its block; `k` is the word in front, and `what` its name in reports. -/
def conditionClause (k : Keyword) (what : String) : P Stmt :=
  let header : P Span := do
    let a ← word k
    let _ ← g .namedExpression
    return a
  explaining (explainHeader what header) <|>
  (spanned do
    let _ ← word k
    let test ← g .namedExpression
    let _ ← colon
    let body ← g .block
    let orelse ← g .elifClause
    return fun sp => .ite sp test body [orelse]) <|>
  (spanned do
    let _ ← word k
    let test ← g .namedExpression
    let _ ← colon
    let body ← g .block
    let orelse ← (rule (elseBlock g)).optional
    return fun sp => .ite sp test body (orelse.getD []))

def ifStatement : P Stmt := conditionClause g .if_ "'if' statement"

def elifClause : P Stmt := conditionClause g .elif_ "'elif' statement"

def whileStatement : P Stmt :=
  explaining (explainHeader "'while' statement" (do
    let a ← word .while_
    let _ ← g .namedExpression
    return a)) <|>
  (spanned do
    let _ ← word .while_
    let test ← g .namedExpression
    let _ ← colon
    let body ← g .block
    let orelse ← (rule (elseBlock g)).optional
    return fun sp => .whileLoop sp test body (orelse.getD []))

def forStatement : P Stmt :=
  let header : P Span := do
    let a ← (word .async_).optional
    let b ← word .for_
    let _ ← starTargets g
    let _ ← word .in_
    let _ ← starExpressions g
    return a.getD b
  let loop (isAsync : Bool) : P Stmt := spanned do
    if isAsync then do let _ ← word .async_
    let _ ← word .for_
    let target ← starTargets g
    let _ ← word .in_
    committed do
      let iter ← starExpressions g
      let _ ← colon
      let body ← g .block
      let orelse ← (rule (elseBlock g)).optional
      return fun sp => .forLoop sp isAsync target iter body (orelse.getD [])
  explaining (explainHeader "'for' statement" header) <|> loop false <|> loop true <|>
  explaining (do
    let _ ← (word .async_).optional
    let _ ← word .for_
    let e ← starExpressions g
    rejectTarget .looped e)

def withItem : P WithItem :=
  (do
    let e ← g .expression
    let _ ← word .as_
    let t ← g .starTarget
    ahead (comma <|> symbol .rpar <|> colon)
    return ⟨e, some t⟩) <|>
  explaining (do
    let _ ← g .expression
    let _ ← word .as_
    let a ← g .expression
    ahead (comma <|> symbol .rpar <|> colon)
    rejectTarget .assigned a) <|>
  (do return ⟨← g .expression, none⟩)

/-- The header of a `with` statement, as the explaining rules read it. -/
def withHeader (parenthesized : Bool) : P Span := do
  let a ← (word .async_).optional
  let b ← word .with_
  let item (e : P Expr) : P Unit := do
    let _ ← e
    let _ ← (do let _ ← word .as_; g .starTarget : P Expr).optional
  if parenthesized then do
    let _ ← symbol .lpar
    let _ ← sepBy1 (item (expressions g)) comma
    let _ ← comma.optional
    let _ ← symbol .rpar
  else do
    let _ ← sepBy1 (item (g .expression)) comma
  return a.getD b

def withStatement : P Stmt :=
  let plain (isAsync parenthesized : Bool) : P Stmt := spanned do
    if isAsync then do let _ ← word .async_
    let _ ← word .with_
    let items ←
      if parenthesized then do
        let _ ← symbol .lpar
        let items ← sepBy1 (rule (withItem g)) comma
        let _ ← comma.optional
        let _ ← symbol .rpar
        pure items
      else sepBy1 (rule (withItem g)) comma
    let _ ← colon
    let body ← g .block
    return fun sp => .withBlock sp isAsync items body
  explaining (explainBlock "'with' statement" (withHeader g false) <|>
    explainBlock "'with' statement" (withHeader g true)) <|>
  plain false true <|> plain false false <|> plain true true <|> plain true false <|>
  explaining (
    (do
      let _ ← withHeader g false
      lexeme .newline
      rejectLast "expected ':'") <|>
    (do
      let _ ← withHeader g true
      lexeme .newline
      rejectLast "expected ':'"))

/-- The name that an exception is bound to. -/
def explainHandler {α : Type} : P α :=
  (do
    let _ ← word .except_
    let _ ← (symbol .star).optional
    let a ← g .expression
    let _ ← comma
    let _ ← expressions g
    let _ ← boundName
    let _ ← colon
    rejectFrom a.span "multiple exception types must be parenthesized") <|>
  (do
    let _ ← word .except_
    let _ ← (symbol .star).optional
    let _ ← g .expression
    let _ ← boundName
    lexeme .newline
    rejectLast "expected ':'") <|>
  (do
    let _ ← word .except_
    lexeme .newline
    rejectLast "expected ':'") <|>
  (do
    let _ ← word .except_
    let _ ← symbol .star
    lexeme .newline <|> (do let _ ← colon)
    rejectLast "expected one or more exception types")

def exceptBlock : P Handler := rule (
  explaining (
    explainBlock "'except' statement" (do
      let a ← word .except_
      let _ ← g .expression
      let _ ← boundName
      return a) <|>
    explainBlock "'except' statement" (word .except_)) <|>
  (spanned do
    let _ ← word .except_
    let type ← g .expression
    let n ← boundName
    let _ ← colon
    let body ← g .block
    return fun sp => .mk sp (some type) n body) <|>
  (spanned do
    let _ ← word .except_
    let _ ← colon
    let body ← g .block
    return fun sp => .mk sp none none body) <|>
  explaining (explainHandler g))

def exceptStarBlock : P Handler := rule (
  explaining (explainBlock "'except*' statement" (do
      let a ← word .except_
      let _ ← symbol .star
      let _ ← g .expression
      let _ ← boundName
      return a)) <|>
  (spanned do
    let _ ← word .except_
    let _ ← symbol .star
    let type ← g .expression
    let n ← boundName
    let _ ← colon
    let body ← g .block
    return fun sp => .mk sp (some type) n body) <|>
  explaining (explainHandler g))

def finallyBlock : P (List Stmt) := rule (
  explaining (explainBlock "'finally' statement" (word .finally_)) <|>
  (do
    let _ ← word .finally_
    let _ ← forced .colon ":"
    g .block))

def explainTry {α : Type} : P α :=
  explainBlock "'try' statement" (word .try_) <|>
  (do
    let _ ← word .try_
    let _ ← colon
    let _ ← g .block
    notAhead (word .except_ <|> word .finally_)
    rejectLast "expected 'except' or 'finally' block") <|>
  (do
    let _ ← word .try_
    let _ ← colon
    let _ ← (g .block).many
    (do let _ ← many1 (exceptBlock g); let _ ← exceptStarBlock g) <|>
      (do let _ ← many1 (exceptStarBlock g); let _ ← exceptBlock g)
    let _ ← (g .block).many
    rejectLast "cannot have both 'except' and 'except*' on the same 'try'")

def tryStatement : P Stmt :=
  let opening : P (List Stmt) := do
    let _ ← word .try_
    let _ ← forced .colon ":"
    g .block
  let handled (handler : P Handler) (star : Bool) : P Stmt := spanned do
    let body ← opening
    let hs ← many1 handler
    let orelse ← (rule (elseBlock g)).optional
    let final ← (finallyBlock g).optional
    return fun sp => .tryBlock sp body hs (orelse.getD []) (final.getD []) star
  explaining (explainTry g) <|>
  (spanned do
    let body ← opening
    let final ← finallyBlock g
    return fun sp => .tryBlock sp body [] [] final false) <|>
  handled (exceptBlock g) false <|> handled (exceptStarBlock g) true

def decorators : P (List Expr) := many1 do
  let _ ← symbol .at_
  let e ← g .namedExpression
  lexeme .newline
  return e

/-- A class without its decorators. -/
def classStatement (decorators : List Expr) : P Stmt := rule (
  let header : P Span := do
    let a ← word .class_
    let _ ← name
    let _ ← (do let _ ← symbol .lpar; let _ ← (g .arguments).optional; symbol .rpar : P Span).optional
    return a
  explaining (explainHeader "class definition" header) <|>
  (spanned do
    let _ ← word .class_
    let (n, _) ← name
    let args ← (do
      let _ ← symbol .lpar
      let args ← (g .arguments).optional
      let _ ← symbol .rpar
      return args : P (Option Arguments)).optional
    let _ ← colon
    let body ← g .block
    let (bases, keywords) := match args with
      | some (some a) => (a.positional, a.keywords)
      | _ => ([], [])
    return fun sp => .defineClass sp n bases keywords body decorators))

/-- A function without its decorators. -/
def functionStatement (decorators : List Expr) : P Stmt := rule (
  let s := defStyle g
  let plain (isAsync : Bool) : P Stmt := spanned do
    if isAsync then do let _ ← word .async_
    let _ ← word .def_
    let (n, _) ← name
    let _ ← forced .lpar "("
    let ps ← (rule (params g s)).optional
    let _ ← symbol .rpar
    let returns ← (do let _ ← symbol .arrow; g .expression : P Expr).optional
    let _ ← forced .colon ":"
    let body ← g .block
    return fun sp => .define sp isAsync n (ps.getD .empty) body decorators returns
  explaining (explainBlock "function definition" (do
    let a ← (word .async_).optional
    let b ← word .def_
    let _ ← name
    let _ ← symbol .lpar
    let _ ← (rule (params g s)).optional
    let _ ← symbol .rpar
    let _ ← (do let _ ← symbol .arrow; g .expression : P Expr).optional
    return a.getD b)) <|>
  plain false <|> plain true)

/-- A definition with its decorators, if it has any. -/
def decorated (definition : List Expr → P Stmt) : P Stmt :=
  (do
    let ds ← decorators g
    definition ds) <|>
  definition []

def subject : P Expr :=
  (spanned do
    let first ← starNamedExpression g
    let _ ← comma
    let more ← (starNamedExpressions g).optional
    return fun sp => .tuple sp (first :: more.getD [])) <|>
  g .namedExpression

def guardClause : P Expr := do
  let _ ← word .if_
  g .namedExpression

def caseBlock : P MatchCase := rule (
  explaining (explainHeader "'case' statement" (do
    let a ← softWord "case"
    let _ ← patterns g
    let _ ← (guardClause g).optional
    return a)) <|>
  (do
    let _ ← softWord "case"
    let p ← patterns g
    let guard ← (guardClause g).optional
    let _ ← colon
    let body ← g .block
    return .mk p guard body))

def matchStatement : P Stmt :=
  (spanned do
    let _ ← softWord "match"
    let e ← subject g
    let _ ← colon
    lexeme .newline
    lexeme .indent
    let cases ← many1 (caseBlock g)
    lexeme .dedent
    return fun sp => .matchBlock sp e cases) <|>
  explaining (explainHeader "'match' statement" (do
    let a ← softWord "match"
    let _ ← subject g
    return a))

/-- A statement that holds blocks. -/
def compoundStatement : P Stmt := do
  let t ← token
  let definition : P Stmt := rule (decorated g (functionStatement g))
  let dispatch : P Stmt := match t.lexeme with
    | .word .def_ => definition
    | .symbol .at_ => definition <|> rule (decorated g (classStatement g))
    | .word .async_ => definition <|> rule (withStatement g) <|> rule (forStatement g)
    | .word .if_ => rule (ifStatement g)
    | .word .class_ => rule (decorated g (classStatement g))
    | .word .with_ => rule (withStatement g)
    | .word .for_ => rule (forStatement g)
    | .word .try_ => rule (tryStatement g)
    | .word .while_ => rule (whileStatement g)
    | _ => fail
  dispatch <|> rule (matchStatement g)

def statements : P (List Stmt) := do
  let groups ← many1 ((do return [← rule (compoundStatement g)]) <|> rule (simpleStatements g))
  return groups.flatten

/-- A whole source. -/
def file : P (List Stmt) := do
  let ss ← (g .statements).optional
  lexeme .finish
  return ss.getD []

end Evalbox.Lang.P
