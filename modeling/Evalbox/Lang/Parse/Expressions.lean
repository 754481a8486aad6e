import Evalbox.Lang.Parse.Strings
import Evalbox.Lang.Parse.Names

/-!
# Expressions

The grammar of expressions, of the targets of assignments, and of parameters. Each rule is a parser
that refers to the recursive rules through `g`. Rules whose name begins with `explain` find no
expression: they reject the source with a more telling report, or fail.
-/

namespace Evalbox.Lang.P

open Parse

variable (g : Grammar) (field : FieldParser)

/-! ## Small helpers -/

/-- Add the span of what `p` reads. -/
def spanned {α : Type} (p : P (Span → α)) : P α := do
  let a ← start
  let f ← p
  return f (← spanFrom a)

def comma : P Span := symbol .comma
def colon : P Span := symbol .colon

/-- A name as an expression. -/
def nameExpr : P Expr := do
  let (n, s) ← name
  return .name s n

/-- Reject a target that cannot be one; a valid one ends the rule. -/
def rejectTarget {α : Type} (kind : Expr.TargetKind) (e : Expr) : P α :=
  match e.invalidTarget? kind with
  | some bad =>
    let verb := if kind = .deleted then "cannot delete " else "cannot assign to "
    rejectSpan bad.span (verb ++ bad.describe)
  | none => cut

/-! ## Binary operators, loosest first -/

/-- Operands joined by left-associative operators. -/
def leftAssociative (operand : P Expr) (op : P BinaryOp) : P Expr := do
  let a ← start
  let first ← operand
  foldFrom (fun left => do
    let o ← op
    let right ← operand
    return .binary (← spanFrom a) o left right) first

/-- The operator that a symbol stands for, given by a table. -/
def operator (table : List (Sym × BinaryOp)) : P BinaryOp := accept fun t =>
  match t.lexeme with
  | .symbol s => table.lookup s
  | _ => none

def power : P Expr := do
  let a ← start
  let base ← g .awaitPrimary
  match ← (do let _ ← symbol .doubleStar; g .factor : P Expr).optional with
  | some e => return .binary (← spanFrom a) .pow base e
  | none => return base

def factor : P Expr :=
  let signed (s : Sym) (op : UnaryOp) : P Expr := spanned do
    let _ ← symbol s
    let e ← g .factor
    return fun sp => .unary sp op e
  signed .plus .plus <|> signed .minus .minus <|> signed .tilde .invert <|> power g

def term : P Expr := leftAssociative (g .factor)
  (operator [(.star, .mul), (.slash, .div), (.doubleSlash, .floorDiv), (.percent, .mod), (.at_, .matMul)])

def sum : P Expr := leftAssociative (term g) (operator [(.plus, .add), (.minus, .sub)])

def shift : P Expr :=
  leftAssociative (sum g) (operator [(.leftShift, .leftShift), (.rightShift, .rightShift)])

def bitwiseAnd : P Expr := leftAssociative (shift g) (operator [(.amper, .bitAnd)])

def bitwiseXor : P Expr := leftAssociative (bitwiseAnd g) (operator [(.circumflex, .bitXor)])

def bitwiseOr : P Expr := leftAssociative (bitwiseXor g) (operator [(.vbar, .bitOr)])

/-! ## Comparisons and boolean operators -/

/-- Inequality, in the spelling that is in force. -/
def inequality : P CompareOp := do
  let isOld ← accept fun t => match t.lexeme with
    | .symbol .notEqual => some false
    | .symbol .angled => some true
    | _ => none
  let e ← env
  if e.bdfl then
    if isOld then return .notEq
    else rejectLast "with Barry as BDFL, use '<>' instead of '!='"
  else if isOld then cut else return .notEq

def compareOp : P CompareOp :=
  let single (s : Sym) (op : CompareOp) : P CompareOp := do let _ ← symbol s; return op
  single .eqEqual .eq <|> rule inequality <|> single .lessEqual .lessEq <|> single .less .less <|>
  single .greaterEqual .greaterEq <|> single .greater .greater <|>
  (do let _ ← word .not_; let _ ← word .in_; return .notIn) <|>
  (do let _ ← word .in_; return .isIn) <|>
  (do let _ ← word .is_; let _ ← word .not_; return .isNot) <|>
  (do let _ ← word .is_; return .is)

def comparison : P Expr := do
  let a ← start
  let left ← g .bitwiseOr
  let pairs ← (do let op ← compareOp; let e ← g .bitwiseOr; return (op, e) : P (CompareOp × Expr)).many
  if pairs.isEmpty then return left
  else return .compare (← spanFrom a) left (pairs.map (·.1)) (pairs.map (·.2))

def inversion : P Expr :=
  (spanned do
    let _ ← word .not_
    let e ← g .inversion
    return fun sp => .unary sp .not e) <|>
  comparison g

/-- Operands joined by `and` or `or` into one node. -/
def booleanChain (k : Keyword) (conjunction : Bool) (operand : P Expr) : P Expr := do
  let a ← start
  let first ← operand
  let more ← (do let _ ← word k; operand : P Expr).many
  if more.isEmpty then return first
  else return .boolean (← spanFrom a) conjunction (first :: more)

def conjunction : P Expr := booleanChain .and_ true (g .inversion)

def disjunction : P Expr := booleanChain .or_ false (g .conjunction)

/-! ## Expressions with conditions, functions and names -/

/-- A conditional expression, a disjunction or a function. -/
def plainExpression : P Expr :=
  (spanned do
    let body ← g .disjunction
    let _ ← word .if_
    let test ← g .disjunction
    let _ ← word .else_
    let orelse ← g .expression
    return fun sp => .conditional sp test body orelse) <|>
  g .disjunction <|>
  (spanned do
    let _ ← word .lambda_
    let params ← (g .lambdaParams).optional
    let _ ← colon
    let body ← g .expression
    return fun sp => .function sp (params.getD .empty) body)

/-- Statements of old that are calls now. -/
def isLegacyStatement : Expr → Bool
  | .name _ id => id = "print" || id = "exec"
  | _ => false

/-- Words that are reserved only in some places. -/
def anySoftWord : P Span := softWord "_" <|> softWord "case" <|> softWord "match"

/-- Two expressions side by side inside brackets, or a condition without its alternative. -/
def explainExpression : P Expr :=
  (do
    notAhead ((do let _ ← name; let _ ← accept fun t => match t.lexeme with
                    | .text _ => some ()
                    | _ => none) <|> (do let _ ← anySoftWord))
    let a ← g .disjunction
    let b ← quietly (rule (plainExpression g))
    let e ← env
    let st ← state
    let depth := match e.tokens[st.mark - 1]? with
      | some t => t.depth
      | none => 0
    if isLegacyStatement a || depth = 0 then cut
    else rejectRange a.span b.span "invalid syntax. Perhaps you forgot a comma?") <|>
  (do
    let a ← g .disjunction
    let _ ← word .if_
    let b ← g .disjunction
    notAhead ((do let _ ← word .else_) <|> (do let _ ← colon))
    rejectRange a.span b.span "expected 'else' after 'if' expression")

def starExpression : P Expr :=
  (spanned do
    let _ ← symbol .star
    let e ← g .bitwiseOr
    return fun sp => .starred sp e) <|>
  g .expression

/-- One or more items with an optional last comma; a comma makes a tuple. -/
def tupleOr (item : P Expr) : P Expr := do
  let a ← start
  let first ← item
  let more ← (do let _ ← comma; item : P Expr).many
  let trailing ← comma.optional
  if more.isEmpty && trailing.isNone then return first
  else return .tuple (← spanFrom a) (first :: more)

def starExpressions : P Expr := tupleOr (g .starExpression)

/-- Expressions without stars. -/
def expressions : P Expr := tupleOr (g .expression)

/-- A call of `print` or `exec` without parentheses. -/
def explainLegacy : P Expr := do
  let a ← nameExpr
  notAhead (symbol .lpar)
  let b ← starExpressions g
  match a with
  | .name _ id =>
    if isLegacyStatement a then
      rejectRange a.span b.span ("Missing parentheses in call to '" ++ id ++ "'. Did you mean " ++ id ++ "(...)?")
    else cut
  | _ => cut

def expression : P Expr :=
  explaining (explainExpression g) <|> explaining (explainLegacy g) <|> plainExpression g

def starNamedExpression : P Expr :=
  (spanned do
    let _ ← symbol .star
    let e ← g .bitwiseOr
    return fun sp => .starred sp e) <|>
  g .namedExpression

/-- At least one item, with an optional last comma. -/
def starNamedExpressions : P (List Expr) := do
  let items ← sepBy1 (starNamedExpression g) comma
  let _ ← comma.optional
  return items

def assignmentExpression : P Expr := rule (spanned do
  let target ← nameExpr
  let _ ← symbol .colonEqual
  committed do
    let value ← g .expression
    return fun sp => .named sp target value)

def yieldExpr : P Expr :=
  (spanned do
    let _ ← word .yield_
    let _ ← word .from_
    let e ← g .expression
    return fun sp => .yieldFrom sp e) <|>
  (spanned do
    let _ ← word .yield_
    let e ← (starExpressions g).optional
    return fun sp => .yield sp e)

/-! ## Targets -/

/-- What follows a primary that is not the end of a target. -/
def targetContinues : P Unit :=
  (do let _ ← symbol .lpar) <|> (do let _ ← symbol .lsqb) <|> (do let _ ← symbol .dot)

def slice : P Expr :=
  (spanned do
    let lower ← (g .expression).optional
    let _ ← colon
    let upper ← (g .expression).optional
    let step ← (do let _ ← colon; (g .expression).optional : P (Option Expr)).optional
    return fun sp => .slice sp lower upper (step.getD none)) <|>
  g .namedExpression

def starredExpression : P Expr := spanned do
  let _ ← symbol .star
  let e ← g .expression
  return fun sp => .starred sp e

def slices : P Expr :=
  (do
    let e ← slice g
    notAhead comma
    return e) <|>
  (spanned do
    let items ← sepBy1 (slice g <|> starredExpression g) comma
    let _ ← comma.optional
    return fun sp => .tuple sp items)

/-- The `for` clauses of a comprehension. -/
def clause (targets : P Expr) : P Clause :=
  let rest (isAsync : Bool) : P Clause := do
    let _ ← word .for_
    let target ← targets
    let _ ← word .in_
    committed do
      let iter ← g .disjunction
      let conditions ← (do let _ ← word .if_; g .disjunction : P Expr).many
      return .mk isAsync target iter conditions
  rule ((do let _ ← word .async_; rest true) <|> rest false <|>
    explaining (do
      let _ ← (word .async_).optional
      let _ ← word .for_
      let e ← starExpressions g
      rejectTarget .looped e))

/-- One of several targets, or more of them as a tuple. -/
def starTargets : P Expr :=
  (do
    let e ← g .starTarget
    notAhead comma
    return e) <|>
  (spanned do
    let first ← g .starTarget
    let more ← (do let _ ← comma; g .starTarget : P Expr).many
    let _ ← comma.optional
    return fun sp => .tuple sp (first :: more))

def clauses : P (List Clause) := many1 (clause g (starTargets g))

/-- An attribute or a subscript of a primary, with nothing more behind it. -/
def memberTarget : P Expr :=
  (spanned do
    let e ← g .targetPrimary
    let _ ← symbol .dot
    let (n, _) ← name
    notAhead targetContinues
    return fun sp => .attr sp e n) <|>
  (spanned do
    let e ← g .targetPrimary
    let _ ← symbol .lsqb
    let index ← slices g
    let _ ← symbol .rsqb
    notAhead targetContinues
    return fun sp => .subscript sp e index)

/-- Targets between parentheses that form a tuple. -/
def starTargetsTuple : P (List Expr) :=
  (do
    let first ← g .starTarget
    let more ← many1 (do let _ ← comma; g .starTarget)
    let _ ← comma.optional
    return first :: more) <|>
  (do
    let first ← g .starTarget
    let _ ← comma
    return [first])

def starTargetsList : P (List Expr) := do
  let items ← sepBy1 (g .starTarget) comma
  let _ ← comma.optional
  return items

def starAtom : P Expr :=
  nameExpr <|>
  (do
    let _ ← symbol .lpar
    let e ← g .targetWithStarAtom
    let _ ← symbol .rpar
    return e) <|>
  (spanned do
    let _ ← symbol .lpar
    let items ← (starTargetsTuple g).optional
    let _ ← symbol .rpar
    return fun sp => .tuple sp (items.getD [])) <|>
  (spanned do
    let _ ← symbol .lsqb
    let items ← (starTargetsList g).optional
    let _ ← symbol .rsqb
    return fun sp => .list sp (items.getD []))

def targetWithStarAtom : P Expr := memberTarget g <|> starAtom g

def starTarget : P Expr :=
  (spanned do
    let _ ← symbol .star
    notAhead (symbol .star)
    let e ← g .starTarget
    return fun sp => .starred sp e) <|>
  g .targetWithStarAtom

def singleTarget : P Expr :=
  memberTarget g <|> nameExpr <|>
  (do
    let _ ← symbol .lpar
    let e ← g .singleTarget
    let _ ← symbol .rpar
    return e)

def deleteTargets : P (List Expr) := do
  let items ← sepBy1 (g .deleteTarget) comma
  let _ ← comma.optional
  return items

def deleteTarget : P Expr :=
  memberTarget g <|> nameExpr <|>
  (do
    let _ ← symbol .lpar
    let e ← g .deleteTarget
    let _ ← symbol .rpar
    return e) <|>
  (spanned do
    let _ ← symbol .lpar
    let items ← (deleteTargets g).optional
    let _ ← symbol .rpar
    return fun sp => .tuple sp (items.getD [])) <|>
  (spanned do
    let _ ← symbol .lsqb
    let items ← (deleteTargets g).optional
    let _ ← symbol .rsqb
    return fun sp => .list sp (items.getD []))

/-! ## Displays and comprehensions -/

def list : P Expr := spanned do
  let _ ← symbol .lsqb
  let items ← (starNamedExpressions g).optional
  let _ ← symbol .rsqb
  return fun sp => .list sp (items.getD [])

def tuple : P Expr := spanned do
  let _ ← symbol .lpar
  let items ← (do
    let first ← starNamedExpression g
    let _ ← comma
    let more ← (starNamedExpressions g).optional
    return first :: more.getD [] : P (List Expr)).optional
  let _ ← symbol .rpar
  return fun sp => .tuple sp (items.getD [])

def set : P Expr := spanned do
  let _ ← symbol .lbrace
  let items ← starNamedExpressions g
  let _ ← symbol .rbrace
  return fun sp => .set sp items

def keyValue : P (Expr × Expr) := do
  let key ← g .expression
  let _ ← colon
  let value ← g .expression
  return (key, value)

def dictItem : P DictItem :=
  (do
    let _ ← symbol .doubleStar
    return .spread (← g .bitwiseOr)) <|>
  (do
    let (k, v) ← keyValue g
    return .pair k v)

def dictItems : P (List DictItem) := do
  let items ← sepBy1 (dictItem g) comma
  let _ ← comma.optional
  return items

/-- A value that is starred or missing in a dict display. -/
def explainDictValue {α : Type} : P α :=
  (do
    let _ ← g .expression
    let _ ← colon
    let a ← symbol .star
    let _ ← g .bitwiseOr
    rejectFrom a "cannot use a starred expression in a dictionary value") <|>
  (do
    let _ ← g .expression
    let a ← colon
    ahead ((do let _ ← symbol .rbrace) <|> (do let _ ← comma))
    rejectSpan a "expression expected after dictionary key and ':'")

/-- An entry of a dict display without its value. -/
def explainKeyValue {α : Type} : P α :=
  (do
    let a ← g .expression
    notAhead colon
    rejectAt .grammar "':' expected after dictionary key" a.span.start.line a.span.stop.byte
      a.span.stop.line 0) <|>
  explainDictValue g

def explainDictItems {α : Type} : P α :=
  (do
    let _ ← sepBy1 (dictItem g) comma
    let _ ← comma
    rule (explainKeyValue g)) <|>
  explainDictValue g

def dict : P Expr :=
  (spanned do
    let _ ← symbol .lbrace
    let items ← (dictItems g).optional
    let _ ← symbol .rbrace
    return fun sp => .dict sp (items.getD [])) <|>
  (do
    let _ ← symbol .lbrace
    let _ ← rule (explainDictItems g : P Unit)
    let _ ← symbol .rbrace
    fail)

/-- Unpacking where a comprehension needs one item, or a bare tuple as its item. -/
def explainComprehension {α : Type} : P α :=
  let openBracket (withParen : Bool) : P Unit :=
    (do let _ ← symbol .lsqb) <|> (if withParen then (do let _ ← symbol .lpar) else fail) <|>
    (do let _ ← symbol .lbrace)
  (do
    openBracket true
    let a ← starredExpression g
    let _ ← clauses g
    rejectSpan a.span "iterable unpacking cannot be used in comprehension") <|>
  (do
    openBracket false
    let a ← starNamedExpression g
    let _ ← comma
    let b ← starNamedExpressions g
    let _ ← clauses g
    rejectRange a.span (b.getLastD a).span "did you forget parentheses around the comprehension target?") <|>
  (do
    openBracket false
    let a ← starNamedExpression g
    let b ← comma
    let _ ← clauses g
    rejectRange a.span b "did you forget parentheses around the comprehension target?")

def listComprehension : P Expr :=
  (spanned do
    let _ ← symbol .lsqb
    let item ← g .namedExpression
    let cs ← clauses g
    let _ ← symbol .rsqb
    return fun sp => .listOf sp item cs) <|>
  explaining (explainComprehension g)

def setComprehension : P Expr :=
  (spanned do
    let _ ← symbol .lbrace
    let item ← g .namedExpression
    let cs ← clauses g
    let _ ← symbol .rbrace
    return fun sp => .setOf sp item cs) <|>
  explaining (explainComprehension g)

def dictComprehension : P Expr :=
  (spanned do
    let _ ← symbol .lbrace
    let (key, value) ← keyValue g
    let cs ← clauses g
    let _ ← symbol .rbrace
    return fun sp => .dictOf sp key value cs) <|>
  explaining (do
    let _ ← symbol .lbrace
    let a ← symbol .doubleStar
    let _ ← g .bitwiseOr
    let _ ← clauses g
    let _ ← symbol .rbrace
    rejectSpan a "dict unpacking cannot be used in dict comprehension")

/-- An expression that is no assignment. -/
def unassigned : P Expr :=
  assignmentExpression g <|>
  (do
    let e ← g .expression
    notAhead (symbol .colonEqual)
    return e)

def generator : P Expr :=
  (spanned do
    let _ ← symbol .lpar
    let item ← unassigned g
    let cs ← clauses g
    let _ ← symbol .rpar
    return fun sp => .generator sp item cs) <|>
  explaining (explainComprehension g)

def group : P Expr :=
  (do
    let _ ← symbol .lpar
    let e ← yieldExpr g <|> g .namedExpression
    let _ ← symbol .rpar
    return e) <|>
  explaining (
    (do
      let _ ← symbol .lpar
      let a ← starredExpression g
      let _ ← symbol .rpar
      rejectSpan a.span "cannot use starred expression here") <|>
    (do
      let _ ← symbol .lpar
      let a ← symbol .doubleStar
      let _ ← g .expression
      let _ ← symbol .rpar
      rejectSpan a "cannot use double starred expression here"))

/-! ## Atoms, calls and members -/

/-- A number. -/
def number : P Expr := accept fun t =>
  match t.lexeme with
  | .number text =>
    match NumberValue.ofLiteral text with
    | .int v => some (.constant (spanOf t) (.int v))
    | .float v => some (.constant (spanOf t) (.float v))
    | .imaginary v => some (.constant (spanOf t) (.imaginary v))
  | _ => none

/-- The most decimal digits that an integer literal may have. -/
def integerDigitLimit : Nat := 4300

/-- Reject a decimal integer that is too long, and read any other number. -/
def checkedNumber : P Expr := do
  let t ← token
  match t.lexeme with
  | .number text =>
    let digits := (text.filter (· ≠ '_')).length
    if text.all (fun c => c.isDigit || c = '_') && digits > integerDigitLimit then
      rejectAt .grammar ("Exceeds the limit (4300 digits) for integer string conversion: value has " ++
        toString digits ++ " digits; use sys.set_int_max_str_digits() to increase the limit" ++
        " - Consider hexadecimal for huge integer literals to avoid decimal conversion limits.")
        t.line 0 t.endLine 0
    else number
  | _ => fail

def constantWord (k : Keyword) (c : Constant) : P Expr := do
  let s ← word k
  return .constant s c

def atom : P Expr := do
  let t ← token
  match t.lexeme with
  | .name _ => nameExpr
  | .word .true_ => constantWord .true_ (.bool true)
  | .word .false_ => constantWord .false_ (.bool false)
  | .word .none_ => constantWord .none_ .none
  | .text _ => g .strings
  | .number _ => checkedNumber
  | .symbol .lpar => rule (tuple g <|> rule (group g) <|> rule (generator g))
  | .symbol .lsqb => rule (list g <|> rule (listComprehension g))
  | .symbol .lbrace =>
    rule (rule (dict g) <|> set g <|> rule (dictComprehension g) <|> rule (setComprehension g))
  | .symbol .ellipsis => do
    let s ← symbol .ellipsis
    return .constant s .ellipsis
  | _ => fail

/-- A call, a subscript or an attribute behind a primary. -/
def trailer (a : Place) (e : Expr) : P Expr :=
  (do
    let _ ← symbol .dot
    let (n, _) ← name
    return .attr (← spanFrom a) e n) <|>
  (do
    let arg ← rule (generator g)
    return .call (← spanFrom a) e [arg] []) <|>
  (do
    let _ ← symbol .lpar
    let args ← (g .arguments).optional
    let _ ← symbol .rpar
    let sp ← spanFrom a
    match args with
    | some args => return .call sp e args.positional args.keywords
    | none => return .call sp e [] []) <|>
  (do
    let _ ← symbol .lsqb
    let index ← slices g
    let _ ← symbol .rsqb
    return .subscript (← spanFrom a) e index)

def primary : P Expr := do
  let a ← start
  let first ← atom g
  foldFrom (trailer g a) first

/-- A primary with something behind it that can end a target. -/
def targetPrimary : P Expr := do
  let a ← start
  let first ← atom g
  ahead targetContinues
  foldFrom (fun e => do
    let e ← trailer g a e
    ahead targetContinues
    return e) first

def awaitPrimary : P Expr :=
  (spanned do
    let _ ← word .await_
    let e ← g .primary
    return fun sp => .await sp e) <|>
  g .primary

/-! ## Arguments of calls -/

/-- A keyword argument that is none. -/
def explainKeywordArg {α : Type} : P α :=
  (do
    let (a, text) ← (do let s ← word .true_; return (s, "True")) <|>
      (do let s ← word .false_; return (s, "False")) <|> (do let s ← word .none_; return (s, "None"))
    let b ← symbol .equal
    rejectRange a b ("cannot assign to " ++ text)) <|>
  (do
    let (_, a) ← name
    let b ← symbol .equal
    let _ ← g .expression
    let _ ← clauses g
    rejectRange a b "invalid syntax. Maybe you meant '==' or ':=' instead of '='?") <|>
  (do
    notAhead (do let _ ← name; symbol .equal)
    let a ← g .expression
    let b ← symbol .equal
    rejectRange a.span b "expression cannot contain assignment, perhaps you meant \"==\"?")

/-- An argument of the second part of a call: a keyword argument, or a spread one. -/
inductive LateArg where
  | positional (value : Expr)
  | keyword (value : KeywordArg)

def namedArg : P LateArg := spanned do
  let (n, _) ← name
  let _ ← symbol .equal
  let e ← g .expression
  return fun sp => .keyword (.mk sp (some n) e)

def keywordOrStarred : P LateArg :=
  explaining (explainKeywordArg g) <|> namedArg g <|>
  (do return .positional (← starredExpression g))

def keywordOrDoubleStarred : P LateArg :=
  explaining (explainKeywordArg g) <|> namedArg g <|>
  (spanned do
    let _ ← symbol .doubleStar
    let e ← g .expression
    return fun sp => .keyword (.mk sp none e))

def lateArgs : P (List LateArg) :=
  (do
    let first ← sepBy1 (rule (keywordOrStarred g)) comma
    let _ ← comma
    let second ← sepBy1 (rule (keywordOrDoubleStarred g)) comma
    return first ++ second) <|>
  sepBy1 (rule (keywordOrStarred g)) comma <|>
  sepBy1 (rule (keywordOrDoubleStarred g)) comma

/-- Collect arguments in the order in which they stand. -/
def collectArgs (positional : List Expr) (late : List LateArg) (sp : Span) : Arguments :=
  ⟨sp, positional ++ late.filterMap (fun | .positional e => some e | .keyword _ => none),
   late.filterMap fun | .positional _ => none | .keyword k => some k⟩

def args : P Arguments :=
  (spanned do
    let positional ← sepBy1 (starredExpression g <|> (do
      let e ← unassigned g
      notAhead (symbol .equal)
      return e)) comma
    let late ← (do let _ ← comma; lateArgs g : P (List LateArg)).optional
    return collectArgs positional (late.getD [])) <|>
  (spanned do
    let late ← lateArgs g
    return collectArgs [] late)

/-- The last part of a clause. -/
def lastOfClause : Clause → Expr
  | .mk _ _ iter conditions => conditions.getLastD iter

def lastOfClauses (cs : List Clause) (e : Expr) : Expr :=
  match cs.getLast? with
  | some c => lastOfClause c
  | none => e

def targetOfLast (cs : List Clause) (e : Expr) : Expr :=
  match cs.getLast? with
  | some (.mk _ target _ _) => target
  | none => e

def explainArguments : P Arguments :=
  let bare := "Generator expression must be parenthesized"
  (do
    let a ← args g
    let _ ← comma
    let _ ← symbol .star
    rejectSpan a.span "iterable argument unpacking follows keyword argument unpacking") <|>
  (do
    let a ← g .expression
    let b ← clauses g
    let _ ← comma
    let _ ← (do let _ ← args g) <|> (do let _ ← g .expression; let _ ← clauses g) <|> pure ()
    rejectRange a.span (lastOfClauses b a).span bare) <|>
  (do
    let (_, a) ← name
    let b ← symbol .equal
    let _ ← g .expression
    let _ ← clauses g
    rejectRange a b "invalid syntax. Maybe you meant '==' or ':=' instead of '='?") <|>
  (do
    let a ← args g
    let b ← clauses g
    match a.positional.getLast? with
    | some last =>
      if a.positional.length ≤ 1 then cut
      else rejectRange last.span (lastOfClauses b last).span bare
    | none => cut) <|>
  (do
    let _ ← args g
    let _ ← comma
    let a ← g .expression
    let b ← clauses g
    rejectRange a.span (targetOfLast b a).span bare) <|>
  (do
    let a ← args g
    let _ ← comma
    let _ ← args g
    if a.keywords.any (·.name.isNone) then
      rejectLast "positional argument follows keyword argument unpacking"
    else rejectLast "positional argument follows keyword argument")

def arguments : P Arguments :=
  (do
    let a ← args g
    let _ ← comma.optional
    ahead (symbol .rpar)
    return a) <|>
  explaining (explainArguments g)

/-! ## Named expressions -/

/-- An assignment with the wrong sign or to the wrong thing. -/
def explainNamed : P Expr :=
  (do
    let a ← g .expression
    let _ ← symbol .colonEqual
    let _ ← g .expression
    rejectSpan a.span ("cannot use assignment expressions with " ++ a.describe)) <|>
  (do
    let (_, a) ← name
    let _ ← symbol .equal
    let b ← g .bitwiseOr
    notAhead (symbol .equal <|> symbol .colonEqual)
    rejectRange a b.span "invalid syntax. Maybe you meant '==' or ':=' instead of '='?") <|>
  (do
    notAhead ((do let _ ← list g) <|> (do let _ ← tuple g) <|> (do let _ ← rule (generator g)) <|>
      (do let _ ← word .true_) <|> (do let _ ← word .none_) <|> (do let _ ← word .false_))
    let a ← g .bitwiseOr
    let _ ← symbol .equal
    let _ ← g .bitwiseOr
    notAhead (symbol .equal <|> symbol .colonEqual)
    rejectSpan a.span ("cannot assign to " ++ a.describe ++ " here. Maybe you meant '==' instead of '='?"))

def namedExpression : P Expr :=
  assignmentExpression g <|> explaining (explainNamed g) <|>
  (do
    let e ← g .expression
    notAhead (symbol .colonEqual)
    return e)

end Evalbox.Lang.P
