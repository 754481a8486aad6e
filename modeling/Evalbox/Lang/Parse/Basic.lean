import Evalbox.Lang.Scan
import Evalbox.Lang.Tree

/-!
# Parsers with ordered choice

A parser `P α` reads tokens from a fixed array. Alternatives are tried in order and the first that
succeeds is taken; results of the recursive rules are remembered for each place, so that going back
costs nothing. Three ways of not succeeding are told apart: `fail` lets the next alternative try,
`cut` ends the whole rule, and `stop` rejects the source.

Tokens are handed over one by one, and how far that has gone (`fill`) is part of the state even where
the parser has gone back: an error is reported at the last token that was handed over.

A source is parsed up to twice. Only the second run, which knows that there is an error, tries the
rules that explain errors (`env.explain`).
-/

namespace Evalbox.Lang

/-- Categories of warnings. -/
inductive WarningKind where
  | deprecation
  | grammar
  deriving DecidableEq, Repr, Inhabited

/-- A warning about a source line. -/
structure Warning where
  kind : WarningKind
  text : String
  line : Nat
  deriving DecidableEq, Repr, Inhabited

/-- The arguments of a call. -/
structure Arguments where
  span : Span
  positional : List Expr
  keywords : List KeywordArg
  deriving Inhabited

namespace Parse

/-- The rules of the grammar that refer to themselves through others, and those that are tried
repeatedly at one place. -/
inductive Rule where
  | statements | block | simpleStatement | elifClause
  | expression | starExpression | namedExpression | disjunction | conjunction | inversion
  | bitwiseOr | factor | awaitPrimary | primary | strings | arguments
  | targetPrimary | starTarget | targetWithStarAtom | deleteTarget | singleTarget | annotatedTarget
  | lambdaParams | pattern | closedPattern
  deriving DecidableEq, Repr

/-- What a rule answers. -/
@[reducible] def Rule.Out : Rule → Type
  | .statements | .block => List Stmt
  | .simpleStatement | .elifClause => Stmt
  | .arguments => Arguments
  | .lambdaParams => Params
  | .pattern | .closedPattern => Pattern
  | _ => Expr

/-- A remembered result: the answer, or that there is none, and the place behind it. -/
structure Entry where
  rule : Rule
  answer : Option rule.Out
  mark : Nat

/-- What a parse runs over. `shift` is where the text stands in the source it was cut from, and
`nested` says that it was cut from a text literal. `bdfl` asks for the old spelling of inequality. -/
structure Env where
  tokens : Array Token
  halt : Option Rejection
  lines : Array (List Char)
  shift : Place
  nested : Bool
  explain : Bool
  bdfl : Bool

/-- The state of a parse: the place in the tokens, how many tokens were handed over, whether the
explaining rules are switched off for now, remembered results by place, and warnings, last first. -/
structure State where
  mark : Nat
  fill : Nat
  quiet : Bool
  memo : Array (List Entry)
  warnings : List Warning

/-- How a parser ends. -/
inductive Reply (α : Type) where
  | ok (value : α) (state : State)
  | fail (state : State)
  | cut (state : State)
  | stop (rejection : Rejection) (state : State)

end Parse

open Parse

/-- Parsers with answers in `α`. -/
def P (α : Type) : Type := Parse.Env → Parse.State → Parse.Reply α

namespace P

variable {α β : Type}

protected def pure (a : α) : P α := fun _ st => .ok a st

protected def bind (p : P α) (f : α → P β) : P β := fun env st =>
  match p env st with
  | .ok a st => f a env st
  | .fail st => .fail st
  | .cut st => .cut st
  | .stop r st => .stop r st

instance : Monad P where
  pure := P.pure
  bind := P.bind

/-- Give up this alternative. -/
def fail : P α := fun _ st => .fail st

/-- Give up the whole rule. -/
def cut : P α := fun _ st => .cut st

/-- Try `p`, and `q` from the same place if `p` fails. -/
protected def orElse (p : P α) (q : Unit → P α) : P α := fun env st =>
  let mark := st.mark
  match p env st with
  | .fail st' => q () env { st' with mark }
  | .cut st' => .fail { st' with mark }
  | r => r

instance : OrElse (P α) := ⟨P.orElse⟩

/-- A rule of its own: a cut inside ends it and nothing outside it. -/
def rule (p : P α) : P α := fun env st =>
  let mark := st.mark
  match p env st with
  | .cut st' => .fail { st' with mark }
  | .fail st' => .fail { st' with mark }
  | r => r

/-- After a commitment a failure ends the whole rule. -/
def committed (p : P α) : P α := fun env st =>
  match p env st with
  | .fail st => .cut st
  | r => r

/-- `p` if it succeeds, and nothing otherwise. -/
def optional (p : P α) : P (Option α) := fun env st =>
  let mark := st.mark
  match p env st with
  | .ok a st => .ok (some a) st
  | .fail st' => .ok none { st' with mark }
  | .cut st' => .ok none { st' with mark }
  | .stop r st => .stop r st

/-- Succeed where `p` does, without moving. -/
def ahead (p : P α) : P Unit := fun env st =>
  let mark := st.mark
  match p env st with
  | .ok _ st' => .ok () { st' with mark }
  | .fail st' => .fail { st' with mark }
  | .cut st' => .fail { st' with mark }
  | .stop r st => .stop r st

/-- Succeed where `p` does not, without moving. -/
def notAhead (p : P α) : P Unit := fun env st =>
  let mark := st.mark
  match p env st with
  | .ok _ st' => .fail { st' with mark }
  | .fail st' => .ok () { st' with mark }
  | .cut st' => .ok () { st' with mark }
  | .stop r st => .stop r st

/-- `p` as often as it succeeds, at most `n` times. -/
def manyUpTo (p : P α) : Nat → P (List α)
  | 0 => pure []
  | n + 1 => do
    match ← p.optional with
    | none => pure []
    | some a => return a :: (← manyUpTo p n)

/-- `p` as often as it succeeds. -/
def many (p : P α) : P (List α) := fun env st => manyUpTo p (env.tokens.size + 1) env st

/-- `p` at least once. -/
def many1 (p : P α) : P (List α) := do
  let a ← p
  return a :: (← p.many)

/-- `p` at least once, separated by `sep`. -/
def sepBy1 (p : P α) (sep : P β) : P (List α) := do
  let a ← p
  return a :: (← (do let _ ← sep; p).many)

/-- Fold further operands onto a first one, at most `n` times. -/
def foldUpTo (step : α → P α) : Nat → α → P α
  | 0, a => pure a
  | n + 1, a => do
    match ← (step a).optional with
    | none => pure a
    | some b => foldUpTo step n b

/-- Fold further operands onto a first one as long as a step succeeds. -/
def foldFrom (step : α → P α) (a : α) : P α := fun env st =>
  foldUpTo step (env.tokens.size + 1) a env st

def env : P Env := fun env st => .ok env st

def state : P State := fun _ st => .ok st st

/-- Report a warning. -/
def warn (kind : WarningKind) (text : String) (line : Nat) : P Unit := fun _ st =>
  .ok () { st with warnings := ⟨kind, text, line⟩ :: st.warnings }

/-- The token at hand, handed over if it was not yet. -/
def token : P Token := fun env st =>
  match env.tokens[st.mark]? with
  | some t =>
    if st.mark < st.fill then .ok t st
    else .ok t { st with fill := st.mark + 1
                         warnings := match t.warning with
                           | some w => ⟨.deprecation, w, t.line⟩ :: st.warnings
                           | none => st.warnings }
  | none =>
    match env.halt with
    | some r => .stop r { st with fill := env.tokens.size + 1 }
    | none => .fail st

/-- Go past the token at hand. -/
def advance : P Unit := fun _ st => .ok () { st with mark := st.mark + 1 }

/-- The token at hand if `f` accepts it. -/
def accept (f : Token → Option α) : P α := fun env st =>
  match token env st with
  | .ok t st =>
    match f t with
    | some a => .ok a { st with mark := st.mark + 1 }
    | none => .fail st
  | .fail st => .fail st
  | .cut st => .cut st
  | .stop r st => .stop r st

/-- The span of a token; an empty one if it has no extent. -/
def spanOf (t : Token) : Span := t.span.getD ⟨⟨t.line, 0, 0⟩, ⟨t.endLine, 0, 0⟩⟩

def symbol (s : Sym) : P Span := accept fun t => if t.lexeme = .symbol s then some (spanOf t) else none

def word (k : Keyword) : P Span := accept fun t => if t.lexeme = .word k then some (spanOf t) else none

/-- A token without content. -/
def lexeme (l : Lexeme) : P Unit := accept fun t => if t.lexeme = l then some () else none

/-- A name that is no reserved word. -/
def name : P (String × Span) := accept fun t =>
  match t.lexeme with
  | .name n => some (n, spanOf t)
  | _ => none

/-- A name that only here is a word of its own. -/
def softWord (w : String) : P Span := accept fun t =>
  match t.lexeme with
  | .name n => if n = w then some (spanOf t) else none
  | _ => none

/-- The place at which the next token begins. -/
def start : P Place := do return (spanOf (← token)).start

/-- Tokens that do not extend a node. -/
def isLayout : Lexeme → Bool
  | .newline | .indent | .dedent | .finish => true
  | _ => false

/-- A token that begins no expression. -/
def layout : P Unit := accept fun t => if isLayout t.lexeme then some () else none

/-- The end of the last token before `n` that extends a node. -/
def endBefore (tokens : Array Token) : Nat → Place
  | 0 => ⟨1, 0, 0⟩
  | n + 1 =>
    match tokens[n]? with
    | some t => if isLayout t.lexeme then endBefore tokens n else (spanOf t).stop
    | none => endBefore tokens n

/-- The span from `a` to the last token read. -/
def spanFrom (a : Place) : P Span := fun env st => .ok ⟨a, endBefore env.tokens st.mark⟩ st

/-- How many characters the first `n` bytes of a line touch; one more if they reach beyond it. -/
def charsIn : Nat → List Char → Nat
  | 0, _ => 0
  | _ + 1, [] => 1
  | n + 1, c :: line => charsIn (n + 1 - c.utf8Size) line + 1

/-- The text by which a location on `line` is measured: the buffer of the reader where that reaches
the line, else the line itself. -/
def measured (env : Env) (st : State) (line : Nat) : List Char :=
  let plain := (env.lines[line - 1]?).getD []
  match env.tokens[st.fill - 1]? with
  | some t =>
    if t.cursor.place.line ≤ line + env.shift.line then
      let first := t.cursor.bufferLine - env.shift.line
      let last := t.cursor.place.line - env.shift.line
      ((List.range' first (last + 1 - first)).map fun i => (env.lines[i - 1]?).getD [] ++ ['\n']).flatten
    else plain
  | none => plain

/-- Reject at a line and a column in bytes from 1, up to another. An end column of 0 or less is
kept. -/
def rejectAt (kind : RejectionKind) (text : String) (line byte endLine : Nat) (endByte : Int) : P α :=
  fun env st =>
    let inner (b : Nat) : Nat := if env.nested then b - env.shift.byte else b
    let row := measured env st (line - env.shift.line)
    let column := charsIn (inner byte) row
    let endColumn : Int := if endByte > 0 then charsIn (inner endByte.toNat) row else endByte
    let text := if env.nested then "f-string: " ++ text else text
    .stop ⟨kind, text, line, column, endLine, endColumn⟩ st

/-- Reject at the last token that was handed over. -/
def rejectLastAs (kind : RejectionKind) (text : String) : P α := fun env st =>
  match env.tokens[st.fill - 1]? with
  | none => rejectAt kind text 0 0 0 (-1) env st
  | some t =>
    match t.span with
    | some s => rejectAt kind text s.start.line (s.start.byte + 1) t.endLine (s.stop.byte + 1) env st
    | none => rejectAt kind text t.line t.cursor.place.byte t.endLine (-1) env st

def rejectLast (text : String) : P α := rejectLastAs .grammar text

/-- Reject from the start of one span to the end of another. -/
def rejectRange (a b : Span) (text : String) : P α :=
  rejectAt .grammar text a.start.line (a.start.byte + 1) b.stop.line (b.stop.byte + 1)

/-- Reject at a span. -/
def rejectSpan (a : Span) (text : String) : P α := rejectRange a a text

/-- Reject from a span to where the reader stands. -/
def rejectFrom (a : Span) (text : String) : P α := fun env st =>
  match env.tokens[st.fill - 1]? with
  | some t => rejectAt .grammar text a.start.line (a.start.byte + 1) t.cursor.place.line
      t.cursor.place.byte env st
  | none => rejectSpan a text env st

/-- A rule that explains an error; it is tried only in the second run. -/
def explaining (p : P α) : P α := fun env st =>
  if env.explain && !st.quiet then rule p env st else .fail st

/-- Run `p` with the explaining rules switched off. -/
def quietly (p : P α) : P α := fun env st =>
  let quiet := st.quiet
  match p env { st with quiet := true } with
  | .ok a st' => .ok a { st' with quiet }
  | .fail st' => .fail { st' with quiet }
  | .cut st' => .cut { st' with quiet }
  | .stop r st' => .stop r { st' with quiet }

/-- A token that must follow. -/
def forced (s : Sym) (spelling : String) : P Span := do
  let t ← token
  if t.lexeme = .symbol s then do advance; return spanOf t
  else
    match t.span with
    | some a => rejectSpan a ("expected '" ++ spelling ++ "'")
    | none => rejectAt .grammar ("expected '" ++ spelling ++ "'") t.line 0 t.endLine 0

/-- The remembered result of a rule at a place. -/
def answerOf (r : Rule) : List Entry → Option (Option r.Out × Nat)
  | [] => none
  | e :: rest => if h : e.rule = r then some (h ▸ e.answer, e.mark) else answerOf r rest

/-- Run a rule unless its result at this place is remembered, and remember it. -/
def remembered (r : Rule) (p : P r.Out) : P r.Out := fun env st =>
  let mark := st.mark
  match answerOf r (st.memo.getD mark []) with
  | some (some a, m) => .ok a { st with mark := m }
  | some (none, _) => .fail st
  | none =>
    let store (answer : Option r.Out) (st' : State) : State :=
      { st' with memo := st'.memo.modify mark fun es => ⟨r, answer, st'.mark⟩ :: es }
    match rule p env st with
    | .ok a st' => .ok a (store (some a) st')
    | .fail st' => .fail (store none st')
    | .cut st' => .fail (store none st')
    | .stop e st' => .stop e st'

end P

/-- How a parser refers to the rules. -/
abbrev Parse.Grammar := (r : Parse.Rule) → P r.Out

end Evalbox.Lang
