import Evalbox.Lang.Parse.Basic
import Evalbox.Lang.Literal

/-!
# String literals

Adjacent literals form one value. A formatted literal is cut into text and replacement fields; the
expression of a field is parsed on its own, between parentheses, by the parser that is passed in.
-/

namespace Evalbox.Lang

/-- The place behind a character. -/
def Place.after (p : Place) (c : Char) : Place :=
  if c = '\n' then ⟨p.line + 1, 0, 0⟩ else ⟨p.line, p.col + 1, p.byte + c.utf8Size⟩

/-- The place behind a text. -/
def Place.afterAll (p : Place) (text : List Char) : Place := text.foldl Place.after p

namespace Parse

/-- How to parse the text of a replacement field that stands at a place of the source. -/
abbrev FieldParser := List Char → Place → Except Rejection (Expr × List Warning)

/-- A stretch of a formatted literal: unescaped text, or a replacement field. -/
inductive Piece where
  | text (value : List Char)
  | field (value : Expr)

/-- What is left of a formatted literal, and where it stands. -/
structure Rest where
  chars : List Char
  place : Place

def Rest.drop (r : Rest) (n : Nat) : Rest :=
  ⟨r.chars.drop n, r.place.afterAll (r.chars.take n)⟩

/-- The text in front of the next replacement field: how many characters it has, whether a doubled
brace ends it, and whether a backslash stands before an opening brace. `none` is a closing brace
that stands alone. -/
def textExtent (top raw : Bool) : Nat → List Char → Nat → Bool → Option (Nat × Bool × Bool)
  | 0, _, n, odd => some (n, false, odd)
  | _ + 1, [], n, odd => some (n, false, odd)
  | fuel + 1, c :: rest, n, odd =>
    let brace (b : Char) (before : Nat) (more : List Char) (odd : Bool) : Option (Nat × Bool × Bool) :=
      if top then
        if more.head? = some b then some (before + 1, true, odd)
        else if b = '\x7d' then none
        else some (before, false, odd)
      else some (before, false, odd)
    if !raw && c = '\\' then
      match rest with
      | [] => some (n + 1, false, odd)
      | 'N' :: '\x7b' :: more =>
        let name := more.takeWhile (· ≠ '\x7d')
        let closed := if name.length < more.length then 1 else 0
        textExtent top raw fuel (more.drop (name.length + closed)) (n + 3 + name.length + closed) odd
      | d :: more =>
        if d = '\x7b' then brace d (n + 1) more true
        else if d = '\x7d' then brace d (n + 1) more odd
        else textExtent top raw fuel more (n + 2) odd
    else if c = '\x7b' || c = '\x7d' then brace c n rest odd
    else textExtent top raw fuel rest (n + 1) odd

/-- The extent of the expression of a replacement field. `quote` is the string it is in, with the
number of its quotes, and `opened` holds the open brackets, innermost first. -/
def fieldExtent : Nat → List Char → Nat → Option (Char × Nat) → List Char → Except String Nat
  | 0, _, n, _, _ => .ok n
  | _ + 1, [], n, quote, opened =>
    match quote, opened with
    | some _, _ => .error "f-string: unterminated string"
    | none, b :: _ => .error ("f-string: unmatched '" ++ String.singleton b ++ "'")
    | none, [] => .ok n
  | fuel + 1, c :: rest, n, quote, opened =>
    let thrice : Bool := rest.take 2 = [c, c]
    if c = '\\' then .error "f-string expression part cannot include a backslash"
    else match quote with
    | some (q, size) =>
      if c = q then
        if size = 3 then
          if thrice then fieldExtent fuel (rest.drop 2) (n + 3) none opened
          else fieldExtent fuel rest (n + 1) quote opened
        else fieldExtent fuel rest (n + 1) none opened
      else fieldExtent fuel rest (n + 1) quote opened
    | none =>
      if c = '\'' || c = '"' then
        if thrice then fieldExtent fuel (rest.drop 2) (n + 3) (some (c, 3)) opened
        else fieldExtent fuel rest (n + 1) (some (c, 1)) opened
      else if c = '(' || c = '[' || c = '\x7b' then
        if opened.length ≥ bracketLimit then .error "f-string: too many nested parenthesis"
        else fieldExtent fuel rest (n + 1) none (c :: opened)
      else if c = '#' then .error "f-string expression part cannot include '#'"
      else if opened.isEmpty && (c = '!' || c = ':' || c = '\x7d' || c = '=' || c = '>' || c = '<') then
        if (c = '!' || c = '=' || c = '<' || c = '>') && rest.head? = some '=' then
          fieldExtent fuel (rest.drop 1) (n + 2) none opened
        else if c = '>' || c = '<' then fieldExtent fuel rest (n + 1) none opened
        else .ok n
      else if c = ')' || c = ']' || c = '\x7d' then
        match opened with
        | [] => .error ("f-string: unmatched '" ++ String.singleton c ++ "'")
        | b :: opened =>
          if (b = '(' && c = ')') || (b = '[' && c = ']') || (b = '\x7b' && c = '\x7d') then
            fieldExtent fuel rest (n + 1) none opened
          else .error ("f-string: closing parenthesis '" ++ String.singleton c ++
            "' does not match opening parenthesis '" ++ String.singleton b ++ "'")
      else fieldExtent fuel rest (n + 1) none opened

end Parse

namespace P

open Parse

/-- Unescape a stretch of text that belongs to a token, warning about its first unknown escape. -/
def unescaped (t : Token) (raw : Bool) (body : List Char) : P (List Char) :=
  if raw then pure body
  else match Escape.text (body.length + 1) body 0 none [] with
    | .error f => rejectLast ("(unicode error) " ++ f.message)
    | .ok (value, odd) => do
      match odd with
      | some c => warn .deprecation ("invalid escape sequence '\\" ++ String.singleton c ++ "'") t.line
      | none => pure ()
      return value

/-- Text and fields as an expression. -/
def joinedOf (span : Span) (pieces : List Piece) : Expr :=
  let text (cs : List Char) : Expr := .constant span (.text (String.ofList cs) false)
  let (parts, last) := pieces.foldl (fun (acc : List Expr × List Char) piece =>
    match piece with
    | .text cs => (acc.1, acc.2 ++ cs)
    | .field e => (acc.1 ++ (if acc.2.isEmpty then [e] else [text acc.2, e]), [])) ([], [])
  .joined span (if last.isEmpty then parts else parts ++ [text last])

mutual

/-- The pieces of a formatted literal. `depth` counts how many formats it is nested in. -/
def pieces (field : FieldParser) (t : Token) (span : Span) (raw : Bool) :
    Nat → Nat → Rest → P (List Piece × Rest)
  | 0, _, r => pure ([], r)
  | fuel + 1, depth, r => do
    match textExtent (depth = 0) raw (r.chars.length + 1) r.chars 0 false with
    | none => rejectLast "f-string: single '\x7d' is not allowed"
    | some (n, doubled, odd) =>
      if odd then warn .deprecation "invalid escape sequence '\\\x7b'" t.line
      let text ← unescaped t raw (r.chars.take n)
      let here := if n = 0 then [] else [Piece.text text]
      if doubled then do
        let (more, r) ← pieces field t span raw fuel depth (r.drop (n + 1))
        return (here ++ more, r)
      else
        let r := r.drop n
        match r.chars with
        | '\x7b' :: _ => do
          let (found, r) ← replacement field t span raw fuel depth r
          let (more, r) ← pieces field t span raw fuel depth r
          return (here ++ found ++ more, r)
        | _ => return (here, r)

/-- A replacement field, from its opening brace to its closing one. -/
def replacement (field : FieldParser) (t : Token) (span : Span) (raw : Bool) :
    Nat → Nat → Rest → P (List Piece × Rest)
  | 0, _, r => pure ([], r)
  | fuel + 1, depth, r => do
    if depth ≥ 2 then rejectLast "f-string: expressions nested too deeply"
    let body := r.chars.drop 1
    match fieldExtent (body.length + 1) body 0 none [] with
    | .error text => rejectLast text
    | .ok n =>
      let source := body.take n
      let after := r.drop (n + 1)
      if after.chars.isEmpty then rejectLast "f-string: expecting '\x7d'"
      if source.all (fun c => c = ' ' || c = '\t' || c = '\n' || c = '\x0c' || c = '\r') then
        rejectLast "f-string: empty expression not allowed"
      match field ('(' :: source ++ [')']) r.place with
      | .error e => fun _ st => .stop e st
      | .ok (value, warnings) =>
        (fun _ st => .ok () { st with warnings := warnings ++ st.warnings } : P Unit)
        let (shown, after) := match after.chars with
          | '=' :: more =>
            let blanks := (more.takeWhile fun c => c = ' ' || c = '\t' || c = '\n').length
            (some (body.take (n + 1 + blanks)), after.drop (1 + blanks))
          | _ => (none, after)
        let (conversion, after) ← match after.chars with
          | '!' :: c :: _ =>
            if c = 's' || c = 'r' || c = 'a' then pure (some c, after.drop 2)
            else rejectLast "f-string: invalid conversion character: expected 's', 'r', or 'a'"
          | ['!'] => rejectLast "f-string: expecting '\x7d'"
          | _ => pure (none, after)
        let (spec, after) ← match after.chars with
          | [':'] => rejectLast "f-string: expecting '\x7d'"
          | ':' :: _ => do
            let (ps, rest) ← pieces field t span raw fuel (depth + 1) (after.drop 1)
            pure (some (joinedOf span ps), rest)
          | _ => pure (none, after)
        match after.chars with
        | '\x7d' :: _ =>
          let conversion := if shown.isSome && spec.isNone && conversion.isNone then some 'r' else conversion
          let value := Expr.formatted span value conversion spec
          return ((shown.map Piece.text).toList ++ [.field value], after.drop 1)
        | _ => rejectLast "f-string: expecting '\x7d'"

end

/-- What adjacent literals amount to so far. -/
inductive Literals where
  | bytes (value : List UInt8)
  | text (formatted : Bool) (pieces : List Piece)

/-- Add a literal to those before it. -/
def addLiteral (field : FieldParser) (span : Span) (before : Option Literals) (token : Token × List Char) :
    P (Option Literals) := do
  let (t, lexeme) := token
  let s := StringLiteral.ofLexeme lexeme
  if s.isBytes then
    if s.body.any (·.toNat ≥ 128) then rejectSpan (spanOf t) "bytes can only contain ASCII literal characters"
    let value ←
      if s.isRaw then pure (s.body.map (·.toNat.toUInt8))
      else match Escape.bytes (s.body.length + 1) s.body 0 none [] with
        | .error pos => rejectLast ("(value error) invalid \\x escape at position " ++ toString pos)
        | .ok (value, odd) => do
          match odd with
          | some c => warn .deprecation ("invalid escape sequence '\\" ++ String.singleton c ++ "'") t.line
          | none => pure ()
          pure value
    match before with
    | none => return some (.bytes value)
    | some (.bytes v) => return some (.bytes (v ++ value))
    | some (.text ..) => rejectLast "cannot mix bytes and nonbytes literals"
  else
    let found ←
      if s.isFormatted then do
        let quotes := (lexeme.length - s.letters.length - s.body.length) / 2
        let place := (spanOf t).start.afterAll (lexeme.take (s.letters.length + quotes))
        let (ps, _) ← pieces field t span s.isRaw (s.body.length + 2) 0 ⟨s.body, place⟩
        pure ps
      else do
        let value ← unescaped t s.isRaw s.body
        pure [Piece.text value]
    match before with
    | none => return some (.text s.isFormatted found)
    | some (.text f ps) => return some (.text (f || s.isFormatted) (ps ++ found))
    | some (.bytes _) => rejectLast "cannot mix bytes and nonbytes literals"

/-- One or more string literals. -/
def strings (field : FieldParser) : P Expr := do
  let literal : P (Token × List Char) := accept fun t =>
    match t.lexeme with
    | .text cs => some (t, cs)
    | _ => none
  let first ← literal
  let more ← literal.many
  let last := more.getLastD first
  let span : Span := (spanOf first.1).to (spanOf last.1)
  let value ← (first :: more).foldlM (addLiteral field span) none
  match value with
  | some (.bytes v) => return .constant span (.bytes v)
  | some (.text false ps) =>
    let chars := ps.flatMap fun
      | .text cs => cs
      | .field _ => []
    return .constant span (.text (String.ofList chars) (StringLiteral.ofLexeme first.2).isUnicode)
  | some (.text true ps) => return joinedOf span ps
  | none => fail

end P

end Evalbox.Lang
