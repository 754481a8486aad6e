import Evalbox.Lang.Parse.Expressions

/-!
# Patterns

The grammar of the patterns of a `match` statement.
-/

namespace Evalbox.Lang.P

open Parse

variable (g : Grammar)

/-- A number with an optional minus in front. -/
def signedNumber : P Expr :=
  checkedNumber <|>
  (spanned do
    let _ ← symbol .minus
    let e ← checkedNumber
    return fun sp => .unary sp .minus e)

/-- A real part and an imaginary part. -/
def complexNumber : P Expr := spanned do
  let real ← signedNumber
  let op ← operator [(.plus, .add), (.minus, .sub)]
  let unit ← checkedNumber
  match unit with
  | .constant _ (.imaginary _) => return fun sp => .binary sp op real unit
  | _ => rejectSpan unit.span "imaginary number required in complex literal"

/-- A number that no sign follows. -/
def loneNumber : P Expr := do
  let e ← signedNumber
  notAhead (symbol .plus <|> symbol .minus)
  return e

/-- A name with any number of members behind it, at least one if `members`. -/
def dottedValue (members : Bool) : P Expr := do
  let a ← start
  let first ← nameExpr
  let member (e : Expr) : P Expr := do
    let _ ← symbol .dot
    let (n, _) ← name
    return .attr (← spanFrom a) e n
  let e ← if members then member first else pure first
  foldFrom member e

def literalValue : P Expr := loneNumber <|> complexNumber <|> (g .strings)

def literalKey : P Expr :=
  literalValue g <|> constantWord .none_ .none <|> constantWord .true_ (.bool true) <|>
  constantWord .false_ (.bool false)

def literalPattern : P Pattern :=
  (spanned do
    let e ← literalValue g
    return fun sp => .value sp e) <|>
  (do return .singleton (← word .none_) .none) <|>
  (do return .singleton (← word .true_) (.bool true)) <|>
  (do return .singleton (← word .false_) (.bool false))

/-- A name to bind. -/
def captureTarget : P String := do
  notAhead (softWord "_")
  let (n, _) ← name
  notAhead (symbol .dot <|> symbol .lpar <|> symbol .equal)
  return n

def starPattern : P Pattern := spanned do
  let _ ← symbol .star
  let n ← (do return some (← captureTarget)) <|> (do let _ ← softWord "_"; return none)
  return fun sp => .star sp n

def maybeStarPattern : P Pattern := rule starPattern <|> g .pattern

def maybeSequence : P (List Pattern) := do
  let ps ← sepBy1 (maybeStarPattern g) comma
  let _ ← comma.optional
  return ps

def openSequence : P (List Pattern) := do
  let first ← maybeStarPattern g
  let _ ← comma
  let more ← (maybeSequence g).optional
  return first :: more.getD []

def sequencePattern : P Pattern :=
  (spanned do
    let _ ← symbol .lsqb
    let ps ← (maybeSequence g).optional
    let _ ← symbol .rsqb
    return fun sp => .sequence sp (ps.getD [])) <|>
  (spanned do
    let _ ← symbol .lpar
    let ps ← (openSequence g).optional
    let _ ← symbol .rpar
    return fun sp => .sequence sp (ps.getD []))

def keyPattern : P (Expr × Pattern) := do
  let key ← literalKey g <|> dottedValue true
  let _ ← colon
  let p ← g .pattern
  return (key, p)

def restPattern : P String := do
  let _ ← symbol .doubleStar
  captureTarget

def mappingPattern : P Pattern := spanned do
  let _ ← symbol .lbrace
  (do
    let _ ← symbol .rbrace
    return fun sp => .mapping sp [] [] none) <|>
  (do
    let r ← restPattern
    let _ ← comma.optional
    let _ ← symbol .rbrace
    return fun sp => .mapping sp [] [] (some r)) <|>
  (do
    let items ← sepBy1 (keyPattern g) comma
    let _ ← comma
    let r ← restPattern
    let _ ← comma.optional
    let _ ← symbol .rbrace
    return fun sp => .mapping sp (items.map (·.1)) (items.map (·.2)) (some r)) <|>
  (do
    let items ← sepBy1 (keyPattern g) comma
    let _ ← comma.optional
    let _ ← symbol .rbrace
    return fun sp => .mapping sp (items.map (·.1)) (items.map (·.2)) none)

def keywordPattern : P (String × Pattern) := do
  let (n, _) ← name
  let _ ← symbol .equal
  let p ← g .pattern
  return (n, p)

def keywordPatterns : P (List (String × Pattern)) := sepBy1 (keywordPattern g) comma

def positionalPatterns : P (List Pattern) := sepBy1 (g .pattern) comma

/-- The span of a pattern. -/
def patternSpan : Pattern → Span
  | .value s .. | .singleton s .. | .sequence s .. | .mapping s .. | .classOf s .. | .star s ..
  | .capture s .. | .either s .. => s

def classPattern : P Pattern :=
  let close (cls : Expr) (ps : List Pattern) (ks : List (String × Pattern)) : P (Span → Pattern) := do
    let _ ← symbol .rpar
    return fun sp => .classOf sp cls ps (ks.map (·.1)) (ks.map (·.2))
  (spanned do
    let cls ← dottedValue false
    let _ ← symbol .lpar
    close cls [] []) <|>
  (spanned do
    let cls ← dottedValue false
    let _ ← symbol .lpar
    let ps ← positionalPatterns g
    let _ ← comma.optional
    close cls ps []) <|>
  (spanned do
    let cls ← dottedValue false
    let _ ← symbol .lpar
    let ks ← keywordPatterns g
    let _ ← comma.optional
    close cls [] ks) <|>
  (spanned do
    let cls ← dottedValue false
    let _ ← symbol .lpar
    let ps ← positionalPatterns g
    let _ ← comma
    let ks ← keywordPatterns g
    let _ ← comma.optional
    close cls ps ks) <|>
  explaining (do
    let _ ← dottedValue false
    let _ ← symbol .lpar
    let _ ← (do let _ ← positionalPatterns g; comma : P Span).optional
    let _ ← keywordPatterns g
    let _ ← comma
    let ps ← positionalPatterns g
    match ps, ps.getLast? with
    | p :: _, some q => rejectRange (patternSpan p) (patternSpan q) "positional patterns follow keyword patterns"
    | _, _ => fail)

def closedPattern : P Pattern :=
  literalPattern g <|>
  (spanned do
    let n ← captureTarget
    return fun sp => .capture sp none (some n)) <|>
  (do
    let s ← softWord "_"
    return .capture s none none) <|>
  (spanned do
    let e ← dottedValue true
    notAhead (symbol .dot <|> symbol .lpar <|> symbol .equal)
    return fun sp => .value sp e) <|>
  (do
    let _ ← symbol .lpar
    let p ← g .pattern
    let _ ← symbol .rpar
    return p) <|>
  sequencePattern g <|> mappingPattern g <|> rule (classPattern g)

def orPattern : P Pattern := do
  let a ← start
  let ps ← sepBy1 (g .closedPattern) (symbol .vbar)
  match ps with
  | [p] => return p
  | _ => return .either (← spanFrom a) ps

def pattern : P Pattern :=
  (spanned do
    let p ← orPattern g
    let _ ← word .as_
    let n ← captureTarget
    return fun sp => .capture sp (some p) (some n)) <|>
  explaining (
    (do
      let _ ← orPattern g
      let _ ← word .as_
      let a ← softWord "_"
      rejectSpan a "cannot use '_' as a target") <|>
    (do
      let _ ← orPattern g
      let _ ← word .as_
      notAhead name
      let a ← g .expression
      rejectSpan a.span "invalid pattern target")) <|>
  orPattern g

/-- The patterns of a case: one, or several without brackets. -/
def patterns : P Pattern :=
  (spanned do
    let ps ← openSequence g
    return fun sp => .sequence sp ps) <|>
  g .pattern

end Evalbox.Lang.P
