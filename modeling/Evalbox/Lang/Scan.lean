import Evalbox.Lang.Token
import Evalbox.Lang.Numeral
import Evalbox.Text.Printable

/-!
# From text to tokens

`scan` turns a source into its tokens and, if they end early, the reason. The text is first brought
to the form in which lines are counted (`canonical`): every line ends in a line feed, the last one
included.

A `Reader` walks the text. It stands at the end of a line until the next character is asked for, and
only then is the next line counted; errors at the end of a text are reported on its last line for
this reason.
-/

namespace Evalbox.Lang

/-- Carriage returns become line feeds, the pair of both becomes one line feed, and a line feed is
added at the end of a text that ends in anything but a single one. -/
def canonical : List Char → List Char
  | [] => ['\n']
  | ['\n'] => ['\n']
  | ['\r'] => ['\n']
  | '\r' :: '\n' :: rest => '\n' :: canonical rest
  | '\r' :: rest => '\n' :: canonical rest
  | c :: rest => c :: canonical rest

/-- A place in the text. `fresh` says that the line at hand is used up and the next not begun;
`ahead` counts the characters between the start of the buffer and the start of the line. -/
structure Reader where
  rest : List Char
  place : Place
  fresh : Bool
  bufferLine : Nat
  ahead : Nat
  deriving Repr, Inhabited

namespace Reader

def ofText (text : List Char) : Reader := ⟨text, ⟨0, 0, 0⟩, true, 0, 0⟩

def cursor (r : Reader) : Cursor := ⟨r.place, r.bufferLine⟩

/-- Begin the next line if the one at hand is used up. The buffer begins anew with it unless the
reader is inside a token. -/
def settle (r : Reader) (inToken : Bool) : Reader :=
  if r.fresh && !r.rest.isEmpty then
    { r with
      place := ⟨r.place.line + 1, 0, 0⟩, fresh := false
      bufferLine := if inToken then r.bufferLine else r.place.line + 1
      ahead := if inToken then r.ahead + r.place.col else 0 }
  else r

/-- Read one character. -/
def skip (r : Reader) (inToken : Bool) : Reader :=
  let r := r.settle inToken
  match r.rest with
  | [] => r
  | c :: rest =>
    { r with rest, place := ⟨r.place.line, r.place.col + 1, r.place.byte + c.utf8Size⟩
             fresh := c = '\n' }

/-- Read `n` characters of a token. -/
def skipMany (r : Reader) : Nat → Reader
  | 0 => r
  | n + 1 => (r.skip true).skipMany n

/-- Give up the rest of the line at hand. -/
def skipLine (r : Reader) : Nat → Reader
  | 0 => r
  | n + 1 => match r.rest with
    | [] => r
    | _ :: _ => if r.fresh then r else (r.skip true).skipLine n

end Reader

/-- Why the reader stops, before it is known what is reported for it. -/
inductive Stop where
  /-- reported by the scanner itself at characters `column` to `endColumn` of the line -/
  | fault (text : String) (line : Nat) (column endColumn : Nat)
  | endOfText
  | continuation
  | dedent
  | tabs
  | tooDeep
  deriving Repr

/-- The deepest nesting of brackets, and of indentation. -/
def bracketLimit : Nat := 200

def indentLimit : Nat := 100

/-- The scanner between two tokens. Indentation is measured twice, with tabs to every eighth column
and with tabs of one column; the two must order lines alike. `levels` holds the open levels, the
innermost first, and `pending` the indents (positive) or dedents (negative) still to be handed
over. -/
structure Scanner where
  reader : Reader
  lineStart : Bool
  pending : Int
  levels : List (Nat × Nat)
  brackets : List OpenBracket
  deriving Repr, Inhabited

namespace Scanner

def ofText (text : List Char) : Scanner := ⟨Reader.ofText text, true, 0, [], []⟩

/-- The report for a stop. -/
def halt (s : Scanner) (r : Reader) : Stop → Halt
  | .fault text line column endColumn => ⟨⟨.grammar, text, line, column, line, endColumn⟩, true, r.cursor⟩
  | .endOfText =>
    match s.brackets with
    | b :: _ => ⟨b.rejection, false, r.cursor⟩
    | [] => ⟨⟨.grammar, "unexpected EOF while parsing", r.place.line, r.place.col, r.place.line, -1⟩,
             false, r.cursor⟩
  | .continuation =>
    ⟨⟨.grammar, "unexpected character after line continuation character", r.place.line,
      r.ahead + r.place.col, r.place.line, 0⟩, false, r.cursor⟩
  | .dedent =>
    ⟨⟨.indentation, "unindent does not match any outer indentation level", r.place.line, r.place.col,
      r.place.line, -1⟩, false, r.cursor⟩
  | .tabs =>
    ⟨⟨.tabs, "inconsistent use of tabs and spaces in indentation", r.place.line, 1, r.place.line, 0⟩,
     false, r.cursor⟩
  | .tooDeep =>
    ⟨⟨.indentation, "too many levels of indentation", r.place.line, 1, r.place.line, 0⟩, false, r.cursor⟩

/-- Read on after a backslash that continues a line. -/
def continueLine (r : Reader) (inToken : Bool) : Except (Reader × Stop) Reader :=
  let after := r.skip true
  match r.rest with
  | '\n' :: _ => if after.rest.isEmpty then .error (after, .endOfText) else .ok (after.settle inToken)
  | _ => .error (after, .continuation)

/-- The indentation of a line: the reader in front of the first other character, and the two
measures, those in front of a backslash if there is one. -/
def margin : Nat → Reader → Nat → Nat → Option Nat → Except (Reader × Stop) (Reader × Nat × Nat)
  | 0, r, col, alt, _ => .ok (r, col, alt)
  | fuel + 1, r, col, alt, kept =>
    let r := r.settle false
    match r.rest with
    | ' ' :: _ => margin fuel (r.skip false) (col + 1) (alt + 1) kept
    | '\t' :: _ => margin fuel (r.skip false) ((col / 8 + 1) * 8) (alt + 1) kept
    | '\x0c' :: _ => margin fuel (r.skip false) 0 0 kept
    | '\\' :: _ =>
      let first := match kept with
        | some (n + 1) => n + 1
        | _ => col
      match continueLine (r.skip false) false with
      | .ok r => margin fuel r col alt (some first)
      | .error e => .error e
    | _ =>
      match kept with
      | some (n + 1) => .ok (r, n + 1, n + 1)
      | _ => .ok (r, col, alt)

/-- Close levels that are deeper than `col`; answers how many were closed. -/
def closeLevels (col : Nat) : List (Nat × Nat) → Nat × List (Nat × Nat)
  | [] => (0, [])
  | (c, a) :: rest => if col < c then let (n, kept) := closeLevels col rest; (n + 1, kept)
                      else (0, (c, a) :: rest)

/-- Compare the indentation of a line that holds code with the open levels. -/
def reindent (s : Scanner) (r : Reader) (col alt : Nat) : Except (Reader × Stop) Scanner :=
  let (top, topAlt) := s.levels.headD (0, 0)
  if col = top then
    if alt = topAlt then .ok { s with reader := r } else .error (r, .tabs)
  else if col > top then
    if s.levels.length + 2 > indentLimit then .error (r.skipLine r.rest.length, .tooDeep)
    else if alt ≤ topAlt then .error (r, .tabs)
    else .ok { s with reader := r, pending := s.pending + 1, levels := (col, alt) :: s.levels }
  else
    let (n, kept) := closeLevels col s.levels
    let (base, baseAlt) := kept.headD (0, 0)
    if col ≠ base then .error (r.skipLine r.rest.length, .dedent)
    else if alt ≠ baseAlt then .error (r, .tabs)
    else .ok { s with reader := r, pending := s.pending - n, levels := kept }

/-- The offset just after the closing quotes of a string whose opening quotes were read, or how many
characters were read before it turned out to be open. `run` counts quotes in a row. -/
def stringEnd (quote : Char) (size : Nat) : Nat → List Char → Nat → Except Nat Nat
  | _, [], n => .error n
  | run, c :: rest, n =>
    if size = 1 ∧ c = '\n' then .error (n + 1)
    else if c = quote then
      if run + 1 = size then .ok (n + 1) else stringEnd quote size (run + 1) rest (n + 1)
    else if c = '\\' then
      match rest with
      | [] => .error (n + 1)
      | _ :: rest => stringEnd quote size 0 rest (n + 2)
    else stringEnd quote size 0 rest (n + 1)

/-- The length of the string literal at the front of `text`, where `letters` is the number of letters
before its quote. -/
def stringLength (letters : Nat) (text : List Char) : Except (Nat × Nat) Nat :=
  match text.drop letters with
  | q :: q₂ :: q₃ :: rest =>
    if q₂ = q ∧ q₃ = q then (stringEnd q 3 0 rest (letters + 3)).mapError (3, ·)
    else if q₂ = q then .ok (letters + 2)
    else (stringEnd q 1 0 (q₂ :: q₃ :: rest) (letters + 1)).mapError (1, ·)
  | q :: rest => (stringEnd q 1 0 rest (letters + 1)).mapError (1, ·)
  | [] => .error (1, letters)

/-- Letters that may stand before the quote of a string, in lower case. -/
def stringLetters : List (List Char) :=
  [['b'], ['r'], ['u'], ['f'], ['b', 'r'], ['r', 'b'], ['f', 'r'], ['r', 'f']]

/-- The number of a code point in at least four hexadecimal digits. -/
def hexCode (c : Char) : String :=
  let ds := (Nat.toDigits 16 c.toNat).map Char.toUpper
  String.ofList (List.replicate (4 - ds.length) '0' ++ ds)

/-- The complaint about a character that no token may hold. -/
def badCharacter (c : Char) : String :=
  if Text.isPrintable c then "invalid character '" ++ String.singleton c ++ "' (U+" ++ hexCode c ++ ")"
  else "invalid non-printable character U+" ++ hexCode c

/-- The index of the first character that does not belong in an identifier. -/
def badIdentifier? (word : List Char) : Option (Nat × Char) :=
  match word with
  | [] => none
  | c :: rest =>
    if !Text.isIdentifierStart c then some (0, c)
    else match rest.findIdx? (fun d => !Text.isIdentifierContinue d) with
      | some i => some (i + 1, rest.getD i ' ')
      | none => none

/-- A token of the next `n` characters, and the scanner behind it. -/
def take (s : Scanner) (r : Reader) (lexeme : Lexeme) (n : Nat) (warning : Option String) :
    Token × Scanner :=
  let after := r.skipMany n
  (⟨lexeme, r.place.line, after.place.line, some ⟨r.place, after.place⟩, after.cursor,
    s.brackets.length, warning⟩,
   { s with reader := after })

/-- A token without extent. -/
def mark (s : Scanner) (lexeme : Lexeme) : Token :=
  ⟨lexeme, s.reader.place.line, s.reader.place.line, none, s.reader.cursor,
   s.brackets.length, none⟩

/-- A fault at the cursor. -/
def fault (r : Reader) (text : String) : Reader × Stop :=
  (r, .fault text r.place.line r.place.col r.place.col)

/-- Keep track of brackets when a symbol is read; `r` is the reader in front of it. -/
def bracket (s : Scanner) (r : Reader) (sym : Sym) : Except (Reader × Stop) Scanner :=
  let after := r.skipMany 1
  let opened (c : Char) : Except (Reader × Stop) Scanner :=
    if s.brackets.length ≥ bracketLimit then .error (fault after "too many nested parentheses")
    else .ok { s with brackets := ⟨c, r.place⟩ :: s.brackets }
  let closed (c opening : Char) : Except (Reader × Stop) Scanner :=
    match s.brackets with
    | [] => .error (fault after ("unmatched '" ++ String.singleton c ++ "'"))
    | b :: rest =>
      if b.bracket = opening then .ok { s with brackets := rest }
      else
        let text := "closing parenthesis '" ++ String.singleton c ++
          "' does not match opening parenthesis '" ++ String.singleton b.bracket ++ "'"
        .error (fault after (if b.place.line = r.place.line then text
          else text ++ " on line " ++ toString b.place.line))
  match sym with
  | .lpar => opened '('
  | .lsqb => opened '['
  | .lbrace => opened '\x7b'
  | .rpar => closed ')' '('
  | .rsqb => closed ']' '['
  | .rbrace => closed '\x7d' '\x7b'
  | _ => .ok s

/-- A string literal; `letters` stand before its quote. -/
def string (s : Scanner) (r : Reader) (letters : Nat) : Except (Reader × Stop) (Token × Scanner) :=
  match stringLength letters r.rest with
  | .ok n => .ok (s.take r (.text (r.rest.take n)) n none)
  | .error (size, n) =>
    let last := (r.skipMany n).place.line
    let text := if size = 3 then "unterminated triple-quoted string literal (detected at line "
      else "unterminated string literal (detected at line "
    .error (r.skipMany 1, .fault (text ++ toString last ++ ")") r.place.line (r.place.col + 1) (r.place.col + 1))

/-- A number. -/
def number (s : Scanner) (r : Reader) : Except (Reader × Stop) (Token × Scanner) :=
  match Numeral.scan r.rest with
  | .found n warning => .ok (s.take r (.number (r.rest.take n)) n warning)
  | .malformed n text => .error (fault (r.skipMany n) text)
  | .leadingZeros n zerosEnd =>
    .error (r.skipMany n, .fault ("leading zeros in decimal integer literals are not permitted; " ++
      "use an 0o prefix for octal integers") r.place.line (r.place.byte + 1) (r.place.byte + zerosEnd))

/-- A name, a reserved word, or a string literal with letters before its quote. -/
def word (s : Scanner) (r : Reader) : Except (Reader × Stop) (Token × Scanner) :=
  let w := r.rest.takeWhile Numeral.continuesWord
  let quoted := match r.rest.drop w.length with
    | c :: _ => c = '\'' || c = '"'
    | [] => false
  if quoted && stringLetters.contains (w.map Char.toLower) then s.string r w.length
  else match badIdentifier? w with
    | some (i, c) => .error (fault (r.skipMany (i + 1)) (badCharacter c))
    | none =>
      let text := String.ofList w
      match Keyword.ofText? text with
      | some k => .ok (s.take r (.word k) w.length none)
      | none => .ok (s.take r (.name text) w.length none)

/-- The next token inside a line. `blank` says that the line holds no code. `none` asks the caller to
begin the next line. -/
def inLine : Nat → Scanner → Bool → Except (Reader × Stop) (Option Token × Scanner)
  | 0, s, _ => .ok (some (s.mark .finish), s)
  | fuel + 1, s, blank =>
    let r := s.reader.settle false
    match r.rest with
    | [] =>
      if s.brackets.isEmpty then .ok (some ({ s with reader := r }.mark .finish), { s with reader := r })
      else .error (r, .endOfText)
    | c :: rest =>
      if c = ' ' || c = '\t' || c = '\x0c' then inLine fuel { s with reader := r.skip false } blank
      else if c = '\n' || c = '#' then
        let body := r.rest.takeWhile (· ≠ '\n')
        let atEnd := r.skipMany body.length
        let after := atEnd.skip true
        let s' := { s with reader := after, lineStart := true }
        if blank || !s.brackets.isEmpty then .ok (none, s')
        else .ok (some ⟨.newline, r.place.line, r.place.line, some ⟨r.place, atEnd.place⟩, after.cursor,
            0, none⟩, s')
      else if Numeral.continuesWord c && !c.isDigit then
        (s.word r).map fun (t, s) => (some t, s)
      else if c.isDigit || (c = '.' && (rest.head?.map Char.isDigit).getD false) then
        (s.number r).map fun (t, s) => (some t, s)
      else if c = '\'' || c = '"' then (s.string r 0).map fun (t, s) => (some t, s)
      else if c = '\\' then
        match continueLine (r.skip true) true with
        | .ok r => inLine fuel { s with reader := r } blank
        | .error e => .error e
      else match Sym.longest? r.rest with
        | some (sym, n) =>
          (s.bracket r sym).map fun s => let (t, s) := s.take r (.symbol sym) n none; (some t, s)
        | none =>
          if Text.isPrintable c then let (t, s) := s.take r .stray 1 none; .ok (some t, s)
          else .error (fault (r.skipMany 1) ("invalid non-printable character U+" ++ hexCode c))

/-- The next token. -/
def next : Nat → Scanner → Except (Reader × Stop) (Token × Scanner)
  | 0, s => .ok (s.mark .finish, s)
  | fuel + 1, s => do
    let (s, blank) ←
      if s.lineStart then do
        let (r, col, alt) ← margin (s.reader.rest.length + 1) s.reader 0 0 none
        let s := { s with lineStart := false, reader := r }
        let blank := match r.rest with
          | c :: _ => c = '#' || c = '\n'
          | [] => false
        if blank || !s.brackets.isEmpty then pure (s, blank)
        else do let s ← s.reindent r col alt; pure (s, false)
      else pure (s, false)
    if s.pending < 0 then return (s.mark .dedent, { s with pending := s.pending + 1 })
    if s.pending > 0 then return (s.mark .indent, { s with pending := s.pending - 1 })
    let (t, s) ← inLine (s.reader.rest.length + 1) s blank
    match t with
    | some t => return (t, s)
    | none => next fuel s

end Scanner

/-- The tokens of a source in the order in which they are handed over, and why they end early, if
they do. -/
structure TokenStream where
  tokens : Array Token
  halt : Option (Halt × Option OpenBracket)
  deriving Repr, Inhabited

namespace TokenStream

/-- Collect tokens up to the end of the text or a stop. -/
def collect : Nat → Scanner → Array Token → TokenStream
  | 0, _, acc => ⟨acc, none⟩
  | fuel + 1, s, acc =>
    match s.next (s.reader.rest.length + 2) with
    | .error (r, stop) => ⟨acc, some (s.halt r stop, s.brackets.head?)⟩
    | .ok (t, s') => if t.lexeme = .finish then ⟨acc.push t, none⟩ else collect fuel s' (acc.push t)

/-- The tokens of a text. There are at most two tokens for each character, and the closing ones. -/
def ofText (text : List Char) : TokenStream :=
  let text := canonical text
  collect (2 * text.length + indentLimit + 2) (Scanner.ofText text) #[]

end TokenStream

end Evalbox.Lang
