import Evalbox.Lang.Parse.Expressions

/-!
# Parameters

Functions with a name annotate their parameters and close the list with a parenthesis; functions
without one do neither and close it with a colon. `Style` holds what differs, and the rules are
written once.
-/

namespace Evalbox.Lang.P

open Parse

/-- What differs between the two forms of a parameter list. -/
structure Style where
  /-- a parameter with its hint -/
  param : P Param
  /-- a parameter behind one star whose hint is starred too -/
  starParam : P Param
  /-- the symbol behind the list -/
  closing : Sym
  /-- how a complaint about parentheses begins -/
  subject : String

variable (g : Grammar)

/-- A parameter with a hint that `hint` reads, if there is one. -/
def annotatedParam (hint : P Expr) : P Param := spanned do
  let (n, _) ← name
  let a ← (do let _ ← colon; hint : P Expr).optional
  return fun sp => .mk sp n a

def defStyle : Style where
  param := annotatedParam (g .expression)
  starParam := spanned do
    let (n, _) ← name
    let _ ← colon
    let a ← g .starExpression
    return fun sp => .mk sp n (some a)
  closing := .rpar
  subject := "Function parameters"

def lambdaStyle : Style where
  param := spanned do
    let (n, _) ← name
    return fun sp => .mk sp n none
  starParam := fail
  closing := .colon
  subject := "Lambda expression parameters"

variable (s : Style)

/-- Behind a parameter: a comma, or the closing symbol in sight. -/
def paramEnd : P Unit := (do let _ ← comma) <|> ahead (symbol s.closing)

def defaultValue : P Expr :=
  (do
    let _ ← symbol .equal
    g .expression) <|>
  explaining (do
    let a ← symbol .equal
    ahead (symbol s.closing <|> comma)
    rejectSpan a "expected default value expression")

def plainParam : P Param := do
  let p ← s.param
  paramEnd s
  return p

def starredParam : P Param :=
  plainParam s <|>
  (do
    let p ← s.starParam
    paramEnd s
    return p)

def defaultedParam : P (Param × Expr) := do
  let p ← s.param
  let e ← defaultValue g s
  paramEnd s
  return (p, e)

def anyParam : P (Param × Option Expr) := do
  let p ← s.param
  let e ← (defaultValue g s).optional
  paramEnd s
  return (p, e)

/-- A slash and what must follow it. -/
def slash : P Unit := do
  let _ ← symbol .slash
  paramEnd s

def slashPlain : P (List Param) := do
  let ps ← many1 (plainParam s)
  slash s
  return ps

def slashDefaulted : P (List Param × List (Param × Expr)) := do
  let ps ← (plainParam s).many
  let ds ← many1 (defaultedParam g s)
  slash s
  return (ps, ds)

def anySlash : P Unit := (do let _ ← slashPlain s) <|> (do let _ ← slashDefaulted g s)

def explainKeywordRest {α : Type} : P α :=
  (do
    let _ ← symbol .doubleStar
    let _ ← s.param
    let a ← symbol .equal
    rejectSpan a "var-keyword argument cannot have default value") <|>
  (do
    let _ ← symbol .doubleStar
    let _ ← s.param
    let _ ← comma
    let a ← s.param
    rejectSpan a.span "arguments cannot follow var-keyword argument") <|>
  (do
    let _ ← symbol .doubleStar
    let _ ← s.param
    let _ ← comma
    let a ← symbol .star <|> symbol .doubleStar <|> symbol .slash
    rejectSpan a "arguments cannot follow var-keyword argument")

def keywordRest : P Param :=
  explaining (explainKeywordRest s) <|>
  (do
    let _ ← symbol .doubleStar
    plainParam s)

/-- What stands from the first star on. -/
structure Tail where
  rest : Option Param
  keywordOnly : List (Param × Option Expr)
  keywordRest : Option Param

def explainStar {α : Type} : P α :=
  (do
    let a ← symbol .star
    let _ ← symbol s.closing <|> (do let _ ← comma; symbol s.closing <|> symbol .doubleStar)
    rejectSpan a "named arguments must follow bare *") <|>
  (do
    let _ ← symbol .star
    let _ ← s.param
    let a ← symbol .equal
    rejectSpan a "var-positional argument cannot have default value") <|>
  (do
    let _ ← symbol .star
    (do let _ ← plainParam s) <|> (do let _ ← comma)
    let _ ← (anyParam g s).many
    let a ← symbol .star
    (do let _ ← plainParam s) <|> (do let _ ← comma)
    rejectSpan a "* argument may appear only once")

def starTail : P Tail :=
  explaining (explainStar g s) <|>
  (do
    let _ ← symbol .star
    let p ← starredParam s
    let ks ← (anyParam g s).many
    let kr ← (rule (keywordRest s)).optional
    return ⟨some p, ks, kr⟩) <|>
  (do
    let _ ← symbol .star
    let _ ← comma
    let ks ← many1 (anyParam g s)
    let kr ← (rule (keywordRest s)).optional
    return ⟨none, ks, kr⟩) <|>
  (do return ⟨none, [], some (← rule (keywordRest s))⟩)

/-- Put a parameter list together. -/
def assemble (positionalOnly : List (Param × Option Expr)) (positional : List (Param × Option Expr))
    (tail : Option Tail) : Params :=
  let t := tail.getD ⟨none, [], none⟩
  .mk (positionalOnly.map (·.1)) (positional.map (·.1)) t.rest (t.keywordOnly.map (·.1))
    (t.keywordOnly.map (·.2)) t.keywordRest ((positionalOnly ++ positional).filterMap (·.2))

def parameters : P Params :=
  let tail := (rule (starTail g s)).optional
  let bare (ps : List Param) : List (Param × Option Expr) := ps.map (·, none)
  let full (ds : List (Param × Expr)) : List (Param × Option Expr) := ds.map fun (p, e) => (p, some e)
  (do
    let po ← slashPlain s
    let ps ← (plainParam s).many
    let ds ← (defaultedParam g s).many
    return assemble (bare po) (bare ps ++ full ds) (← tail)) <|>
  (do
    let (po, pd) ← slashDefaulted g s
    let ds ← (defaultedParam g s).many
    return assemble (bare po ++ full pd) (full ds) (← tail)) <|>
  (do
    let ps ← many1 (plainParam s)
    let ds ← (defaultedParam g s).many
    return assemble [] (bare ps ++ full ds) (← tail)) <|>
  (do
    let ds ← many1 (defaultedParam g s)
    return assemble [] (full ds) (← tail)) <|>
  (do
    let t ← rule (starTail g s)
    return assemble [] [] (some t))

def explainParameters {α : Type} : P α :=
  (do
    let _ ← (plainParam s).many
    (do let _ ← slashDefaulted g s) <|> (do let _ ← many1 (defaultedParam g s))
    let a ← plainParam s
    rejectSpan a.span "non-default argument follows default argument") <|>
  (do
    let _ ← (plainParam s).many
    let a ← symbol .lpar
    if s.closing = .rpar then do
      let _ ← many1 (plainParam s)
      let _ ← comma.optional
    else do
      let _ ← sepBy1 s.param comma
      let _ ← comma.optional
    let b ← symbol .rpar
    rejectRange a b (s.subject ++ " cannot be parenthesized")) <|>
  (do
    let a ← symbol .slash
    let _ ← comma
    rejectSpan a "at least one argument must precede /") <|>
  (do
    anySlash g s
    let _ ← (anyParam g s).many
    let a ← symbol .slash
    rejectSpan a "/ may appear only once") <|>
  (do
    let _ ← (anySlash g s).optional
    let _ ← (anyParam g s).many
    let _ ← symbol .star
    (do let _ ← comma) <|> (do let _ ← plainParam s)
    let _ ← (anyParam g s).many
    let a ← symbol .slash
    rejectSpan a "/ must be ahead of *") <|>
  (do
    let _ ← many1 (anyParam g s)
    let _ ← symbol .slash
    let a ← symbol .star
    rejectSpan a "expected comma between / and *")

/-- A parameter list. -/
def params : P Params := explaining (explainParameters g s) <|> parameters g s

end Evalbox.Lang.P
