/-!
# Tokens of the snippet language

A `Lexeme` is what the grammar sees; a `Token` adds where it stands. Columns are kept twice, in
characters and in UTF-8 bytes, because syntax trees count bytes and error reports characters.

A token also records where the reader stood when the token was handed over (`Cursor`): some errors
are reported at the cursor and not at a token.
-/

namespace Evalbox.Lang

/-- A place in a source: a line from 1, and a column from 0 in characters and in bytes. -/
structure Place where
  line : Nat
  col : Nat
  byte : Nat
  deriving DecidableEq, Repr, Inhabited

/-- The extent of a token or of a node of the syntax tree. -/
structure Span where
  start : Place
  stop : Place
  deriving DecidableEq, Repr, Inhabited

/-- The smallest span from the start of one to the end of the other. -/
def Span.to (a b : Span) : Span := ⟨a.start, b.stop⟩

/-- Reserved words. -/
inductive Keyword where
  | false_ | none_ | true_ | and_ | as_ | assert_ | async_ | await_ | break_ | class_ | continue_
  | def_ | del_ | elif_ | else_ | except_ | finally_ | for_ | from_ | global_ | if_ | import_ | in_
  | is_ | lambda_ | nonlocal_ | not_ | or_ | pass_ | raise_ | return_ | try_ | while_ | with_
  | yield_
  deriving DecidableEq, Repr, Inhabited

namespace Keyword

/-- Reserved words with their spelling. -/
def table : List (String × Keyword) :=
  [("False", false_), ("None", none_), ("True", true_), ("and", and_), ("as", as_),
   ("assert", assert_), ("async", async_), ("await", await_), ("break", break_),
   ("class", class_), ("continue", continue_), ("def", def_), ("del", del_), ("elif", elif_),
   ("else", else_), ("except", except_), ("finally", finally_), ("for", for_), ("from", from_),
   ("global", global_), ("if", if_), ("import", import_), ("in", in_), ("is", is_),
   ("lambda", lambda_), ("nonlocal", nonlocal_), ("not", not_), ("or", or_), ("pass", pass_),
   ("raise", raise_), ("return", return_), ("try", try_), ("while", while_), ("with", with_),
   ("yield", yield_)]

def ofText? (text : String) : Option Keyword := table.lookup text

end Keyword

/-- Operators and delimiters. -/
inductive Sym where
  | lpar | rpar | lsqb | rsqb | lbrace | rbrace
  | colon | comma | semi | dot | ellipsis | equal | colonEqual | arrow | at_
  | plus | minus | star | slash | doubleSlash | percent | doubleStar | amper | vbar | circumflex
  | tilde | leftShift | rightShift
  | less | greater | lessEqual | greaterEqual | eqEqual | notEqual | angled
  | plusEqual | minusEqual | starEqual | slashEqual | doubleSlashEqual | percentEqual | atEqual
  | doubleStarEqual | amperEqual | vbarEqual | circumflexEqual | leftShiftEqual | rightShiftEqual
  deriving DecidableEq, Repr, Inhabited

namespace Sym

/-- Symbols of three characters. -/
def three : List (List Char × Sym) :=
  [(['*', '*', '='], doubleStarEqual), (['/', '/', '='], doubleSlashEqual),
   (['<', '<', '='], leftShiftEqual), (['>', '>', '='], rightShiftEqual), (['.', '.', '.'], ellipsis)]

/-- Symbols of two characters. -/
def two : List (List Char × Sym) :=
  [(['!', '='], notEqual), (['<', '>'], angled), (['=', '='], eqEqual), (['<', '='], lessEqual),
   (['>', '='], greaterEqual), (['*', '*'], doubleStar), (['/', '/'], doubleSlash),
   (['<', '<'], leftShift), (['>', '>'], rightShift), (['-', '>'], arrow), ([':', '='], colonEqual),
   (['+', '='], plusEqual), (['-', '='], minusEqual), (['*', '='], starEqual),
   (['/', '='], slashEqual), (['%', '='], percentEqual), (['@', '='], atEqual),
   (['&', '='], amperEqual), (['|', '='], vbarEqual), (['^', '='], circumflexEqual)]

/-- Symbols of one character. -/
def one : List (List Char × Sym) :=
  [(['('], lpar), ([')'], rpar), (['['], lsqb), ([']'], rsqb), (['\x7b'], lbrace),
   (['\x7d'], rbrace), ([':'], colon), ([','], comma), ([';'], semi), (['.'], dot), (['='], equal),
   (['@'], at_), (['+'], plus), (['-'], minus), (['*'], star), (['/'], slash), (['%'], percent),
   (['&'], amper), (['|'], vbar), (['^'], circumflex), (['~'], tilde), (['<'], less),
   (['>'], greater)]

/-- The longest symbol at the front of a text, with its number of characters. -/
def longest? (text : List Char) : Option (Sym × Nat) :=
  match three.lookup (text.take 3) with
  | some s => some (s, 3)
  | none => match two.lookup (text.take 2) with
    | some s => some (s, 2)
    | none => (one.lookup (text.take 1)).map (·, 1)

end Sym

/-- What the grammar sees of a token. `text` is the spelling of a string literal with its letters
and quotes, `stray` a printable character that no token begins with. -/
inductive Lexeme where
  | name (text : String)
  | number (text : List Char)
  | text (text : List Char)
  | word (keyword : Keyword)
  | symbol (sym : Sym)
  | stray
  | newline
  | indent
  | dedent
  | finish
  deriving DecidableEq, Repr, Inhabited

/-- Where the reader stands after a token: its line and the characters and bytes read of it, and
the line at which its buffer begins. -/
structure Cursor where
  place : Place
  bufferLine : Nat
  deriving DecidableEq, Repr, Inhabited

/-- A lexeme with its extent, if it has one. `line` is the line it is counted on, `depth` the number
of brackets open behind it, and `warning` what the scanner finds questionable about it. -/
structure Token where
  lexeme : Lexeme
  line : Nat
  endLine : Nat
  span : Option Span
  cursor : Cursor
  depth : Nat
  warning : Option String
  deriving DecidableEq, Repr, Inhabited

/-- The kinds of error that a source can have. -/
inductive RejectionKind where
  | grammar
  | indentation
  | tabs
  deriving DecidableEq, Repr, Inhabited

/-- The name of a rejection's class. -/
def RejectionKind.name : RejectionKind → String
  | grammar => "SyntaxError"
  | indentation => "IndentationError"
  | tabs => "TabError"

/-- Why a source is not in the language, and where: a 1-based line and column each for start and
end. An end column of 0 or less says that the end is unknown. -/
structure Rejection where
  kind : RejectionKind
  text : String
  line : Nat
  column : Int
  endLine : Nat
  endColumn : Int
  deriving DecidableEq, Repr, Inhabited

/-- Why the tokens of a source end early. An `urgent` end is reported in place of an error that the
grammar finds earlier in the text; the others only when the grammar reaches them. -/
structure Halt where
  rejection : Rejection
  urgent : Bool
  cursor : Cursor
  deriving DecidableEq, Repr, Inhabited

/-- A bracket that is still open, with its place. -/
structure OpenBracket where
  bracket : Char
  place : Place
  deriving DecidableEq, Repr, Inhabited

/-- The report that a bracket was never closed. -/
def OpenBracket.rejection (b : OpenBracket) : Rejection :=
  ⟨.grammar, "'" ++ String.singleton b.bracket ++ "' was never closed", b.place.line, b.place.col + 1,
   b.place.line, 0⟩

end Evalbox.Lang
