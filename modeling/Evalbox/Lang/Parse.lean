import Evalbox.Lang.Parse.Statements
import Evalbox.Text.Lines

/-!
# Parsing a source

`parse` turns a text into its statements and the warnings about it, or rejects it. A source that has
an error is parsed a second time with the rules that explain errors; if these find nothing to say,
the last token of the first run is reported. A fault that the scanner meets in the rest of the text
takes precedence over what the grammar finds, and so does a bracket that was opened on an earlier
line and never closed.
-/

namespace Evalbox.Lang

namespace Parse

/-- The rules, given parsers for the rules they refer to. -/
def rules (field : FieldParser) (g : Grammar) : Grammar
  | .statements => P.statements g
  | .block => P.block g
  | .simpleStatement => P.simpleStatement g
  | .elifClause => P.elifClause g
  | .expression => P.expression g
  | .starExpression => P.starExpression g
  | .namedExpression => P.namedExpression g
  | .disjunction => P.disjunction g
  | .conjunction => P.conjunction g
  | .inversion => P.inversion g
  | .bitwiseOr => P.bitwiseOr g
  | .factor => P.factor g
  | .awaitPrimary => P.awaitPrimary g
  | .primary => P.primary g
  | .strings => P.strings field
  | .arguments => P.arguments g
  | .targetPrimary => P.targetPrimary g
  | .starTarget => P.starTarget g
  | .targetWithStarAtom => P.targetWithStarAtom g
  | .deleteTarget => P.deleteTarget g
  | .singleTarget => P.singleTarget g
  | .annotatedTarget => P.annotatedDisplay g
  | .lambdaParams => P.params g (P.lambdaStyle)
  | .pattern => P.pattern g
  | .closedPattern => P.closedPattern g

/-- Whether the results of a rule are remembered. Statements are not, but only what they are made of: what their block
answers is remembered as a whole. -/
def Rule.isRemembered : Rule → Bool
  | .statements | .simpleStatement => false
  | _ => true

/-- The grammar with its recursion unfolded `n` times. -/
def grammar (field : FieldParser) : Nat → Grammar
  | 0 => fun _ => P.fail
  | n + 1 => fun r =>
    let p := rules field (grammar field n) r
    if r.isRemembered then P.remembered r p else P.rule p

/-- How deep rules can nest over `n` tokens: between two tokens no rule is entered twice. -/
def depth (n : Nat) : Nat := 32 * (n + 2)

/-- The state at the start of a run in which `fill` tokens were already handed over. -/
def State.initial (tokens fill : Nat) (warnings : List Warning) : State :=
  ⟨0, fill, false, Array.replicate (tokens + 1) [], warnings⟩

/-- What is reported in place of an error that the grammar found, if the rest of the text holds
something more pressing. -/
def pressing (stream : TokenStream) (st : State) (r : Rejection) : Rejection :=
  match stream.halt with
  | none => r
  | some (halt, bracket) =>
    if st.fill > stream.tokens.size then r
    else if halt.urgent then halt.rejection
    else match bracket, stream.tokens[st.fill - 1]? with
      | some b, some t => if t.line > b.place.line then b.rejection else r
      | _, _ => r

/-- Run a parser over a token stream, a second time with explanations if it does not succeed. Answers
warnings in the order in which they arose. -/
def run {α : Type} (env : Env) (stream : TokenStream) (p : P α) : Except Rejection α × List Warning :=
  let n := stream.tokens.size
  match p env (State.initial n 0 []) with
  | .ok a st => (.ok a, st.warnings.reverse)
  | .stop r st => (.error (pressing stream st r), st.warnings.reverse)
  | .fail st | .cut st =>
    match p { env with explain := true } (State.initial n st.fill st.warnings) with
    | .stop r st => (.error (pressing stream st r), st.warnings.reverse)
    | .ok _ st' | .fail st' | .cut st' =>
      let last := stream.tokens[st.fill - 1]?
      let rejected (q : P Unit) : Rejection := match q env st' with
        | .stop r _ => r
        | _ => default
      let r := match last with
        | none => rejected (P.rejectLast "error at start before reading any input")
        | some t =>
          match t.lexeme with
          | .indent => rejected (P.rejectLastAs .indentation "unexpected indent")
          | .dedent => rejected (P.rejectLastAs .indentation "unexpected unindent")
          | _ =>
            let plain := match t.span with
              | some s => rejected (P.rejectSpan s "invalid syntax")
              | none => rejected (P.rejectAt .grammar "invalid syntax" t.line 0 t.endLine 0)
            pressing stream st' plain
      (.error r, st'.warnings.reverse)

/-- Move a token to where its text was cut from. -/
def shiftToken (shift : Place) (t : Token) : Token :=
  let move (p : Place) : Place :=
    if p.line ≤ 1 then ⟨p.line + shift.line, p.col + shift.col, p.byte + shift.byte⟩
    else ⟨p.line + shift.line, p.col, p.byte⟩
  { t with
    line := t.line + shift.line, endLine := t.endLine + shift.line
    span := t.span.map fun s => ⟨move s.start, move s.stop⟩
    cursor := ⟨⟨t.cursor.place.line + shift.line, t.cursor.place.col, t.cursor.place.byte⟩,
               t.cursor.bufferLine + shift.line⟩ }

/-- What a parse of a text runs over, and its tokens. -/
def prepare (text : List Char) (shift : Place) (nested bdfl : Bool) : Env × TokenStream :=
  let stream := TokenStream.ofText text
  let tokens := if nested then stream.tokens.map (shiftToken shift) else stream.tokens
  let moved (r : Rejection) : Rejection :=
    { r with line := r.line + shift.line, endLine := r.endLine + shift.line }
  let stream : TokenStream := ⟨tokens, stream.halt.map fun (h, b) =>
    ({ h with rejection := moved h.rejection }, b)⟩
  let lines := (Text.sourceLines (canonical text)).map (Text.dropTerminator Text.isSourceBreak)
  (⟨tokens, stream.halt.map (·.1.rejection), lines.toArray, shift, nested, false, bdfl⟩, stream)

/-- A parser of replacement fields, which may nest `n` deep. -/
def fieldParser (bdfl : Bool) : Nat → FieldParser
  | 0 => fun _ p => .error ⟨.grammar, "f-string: expressions nested too deeply", p.line, 0, p.line, 0⟩
  | n + 1 => fun text place =>
    let (env, stream) := prepare text ⟨place.line - 1, place.col, place.byte⟩ true bdfl
    let g := grammar (fieldParser bdfl n) (depth stream.tokens.size)
    match run env stream (P.starExpressions g) with
    | (.ok e, ws) => .ok (e, ws.reverse)
    | (.error r, _) => .error r

end Parse

/-- Why a text is no program: it holds a null character, or it is not in the language. -/
inductive Refusal where
  | nullCharacter
  | rejected (rejection : Rejection)
  deriving DecidableEq, Repr

/-- What is said about a text with a null character. -/
def nullText : String := "source code string cannot contain null bytes"

/-- The statements of a text, and the warnings about it in order. `bdfl` asks for the old spelling of
inequality. -/
def parse (text : List Char) (bdfl : Bool) : Except Refusal (List Stmt) × List Warning :=
  if text.contains '\x00' then (.error .nullCharacter, [])
  else
    let (env, stream) := Parse.prepare text ⟨0, 0, 0⟩ false bdfl
    let g := Parse.grammar (Parse.fieldParser bdfl text.length) (Parse.depth stream.tokens.size)
    match Parse.run env stream (P.file g) with
    | (.ok body, ws) => (.ok body, ws)
    | (.error r, ws) => (.error (.rejected r), ws)

end Evalbox.Lang
