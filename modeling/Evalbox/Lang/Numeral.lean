import Evalbox.Text.Identifier
import Evalbox.Text.Digit

/-!
# The extent of a numeric literal

`Numeral.scan` measures the number at the front of a text: how many characters it has, or where and
why it is malformed. Digits are ASCII; single underscores may stand between them. A literal may not
run into an identifier, except that some keywords may follow it directly, with a warning.
-/

namespace Evalbox.Lang

/-- What the scanner finds at a number. Counts are characters from its start. -/
inductive Numeral where
  /-- a literal of `length` characters, `warning` if a keyword follows it directly -/
  | found (length : Nat) (warning : Option String)
  /-- malformed; the reader stops after `cursor` characters -/
  | malformed (cursor : Nat) (text : String)
  /-- a decimal integer with leading zeros, the last of them before `zerosEnd` -/
  | leadingZeros (cursor zerosEnd : Nat)
  deriving DecidableEq, Repr

namespace Numeral

/-- Characters that would continue an identifier; anything beyond ASCII counts. -/
def continuesWord (c : Char) : Bool := c.isAlphanum || c = '_' || 128 ≤ c.toNat

/-- Whether `word` stands at the front of a text as a whole word. -/
def wordAhead : List Char → List Char → Bool
  | [], [] => true
  | [], c :: _ => !continuesWord c
  | _ :: _, [] => false
  | w :: word, c :: text => w = c && wordAhead word text

/-- Whether one of the keywords that may follow a number directly stands at the front. -/
def keywordAhead (text : List Char) : Bool :=
  match text with
  | 'i' :: c :: _ => c = 'f' || c = 'n' || c = 's'
  | _ => wordAhead "and".toList text || wordAhead "else".toList text ||
         wordAhead "for".toList text || wordAhead "or".toList text

/-- A number of `n` characters ends before `rest`, unless a word follows without a blank. -/
def close (kind : String) (n : Nat) (rest : List Char) : Numeral :=
  if keywordAhead rest then found n (some ("invalid " ++ kind ++ " literal"))
  else match rest with
    | c :: _ => if continuesWord c then malformed n ("invalid " ++ kind ++ " literal")
                else found n none
    | [] => found n none

/-- Where a group of digits stands: at its start, after an underscore, or after a digit. -/
inductive Group where
  | start
  | gap
  | digit
  deriving DecidableEq

/-- Read digits and single underscores between them. Answers the state at the end, the count so far
and what follows. -/
def digits (accepts : Char → Bool) : Group → Nat → List Char → Group × Nat × List Char
  | g, n, [] => (g, n, [])
  | g, n, c :: rest =>
    if accepts c then digits accepts .digit (n + 1) rest
    else if c = '_' ∧ g ≠ .gap then digits accepts .gap (n + 1) rest
    else (g, n, c :: rest)

/-- Digits after a first one. Fails after an underscore that no digit follows. -/
def decimalTail (n : Nat) (text : List Char) : Except Nat (Nat × List Char) :=
  match digits Char.isDigit .digit n text with
  | (.gap, m, _) => .error m
  | (_, m, rest) => .ok (m, rest)

def badDecimal (cursor : Nat) : Numeral := malformed cursor "invalid decimal literal"

/-- The imaginary unit, or the end. -/
def unit (n : Nat) (text : List Char) : Numeral :=
  match text with
  | c :: rest => if c = 'j' ∨ c = 'J' then close "imaginary" (n + 1) rest else close "decimal" n text
  | [] => found n none

/-- An exponent after its letter, which `text` begins with. -/
def exponent (n : Nat) (text : List Char) : Numeral :=
  let digitsFrom (k : Nat) (ds : List Char) : Numeral :=
    match decimalTail k ds with
    | .ok (m, rest) => unit m rest
    | .error m => badDecimal m
  match text with
  | _ :: s :: ds =>
    if s = '+' ∨ s = '-' then
      match ds with
      | d :: _ => if d.isDigit then digitsFrom (n + 2) ds else badDecimal (n + 2)
      | [] => badDecimal (n + 2)
    else if s.isDigit then digitsFrom (n + 1) (s :: ds)
    else close "decimal" n text
  | _ => close "decimal" n text

/-- What may follow the digits of a decimal number with a point. -/
def afterPoint (n : Nat) (text : List Char) : Numeral :=
  let go (m : Nat) (rest : List Char) : Numeral :=
    match rest with
    | c :: _ => if c = 'e' ∨ c = 'E' then exponent m rest else unit m rest
    | [] => found m none
  match text with
  | c :: _ =>
    if c.isDigit then
      match decimalTail n text with
      | .ok (m, rest) => go m rest
      | .error m => badDecimal m
    else go n text
  | [] => found n none

/-- What may follow the integer digits of a decimal number. -/
def afterInteger (n : Nat) (text : List Char) : Numeral :=
  match text with
  | c :: rest =>
    if c = '.' then afterPoint (n + 1) rest
    else if c = 'e' ∨ c = 'E' then exponent n text
    else unit n text
  | [] => found n none

/-- A literal in a base other than ten, after its two leading characters. -/
def inBase (kind : String) (accepts : Char → Bool) (text : List Char) : Numeral :=
  let wrongDigit (n : Nat) (c : Char) : Numeral :=
    malformed (n + 1) ("invalid digit '" ++ String.singleton c ++ "' in " ++ kind ++ " literal")
  match digits accepts .start 2 text with
  | (.digit, n, c :: rest) => if c.isDigit then wrongDigit n c else close kind n (c :: rest)
  | (.digit, n, []) => found n none
  | (_, n, c :: _) => if c.isDigit then wrongDigit n c else malformed n ("invalid " ++ kind ++ " literal")
  | (_, n, []) => malformed n ("invalid " ++ kind ++ " literal")

/-- A literal that begins with the digit nought, which is the first character counted. -/
def afterZero (text : List Char) : Numeral :=
  match digits (· = '0') .digit 1 text with
  | (.gap, n, c :: _) => if c.isDigit then nonzero n text else badDecimal n
  | (.gap, n, []) => badDecimal n
  | (_, n, c :: rest) => if c.isDigit then nonzero n text else afterInteger n (c :: rest)
  | (_, n, []) => found n none
where
  /-- Leading zeros are an error unless a point, an exponent or an imaginary unit follows. -/
  nonzero (zeros : Nat) (text : List Char) : Numeral :=
    match decimalTail 1 text with
    | .error m => badDecimal m
    | .ok (m, rest) =>
      match rest with
      | c :: _ =>
        if c = '.' ∨ c = 'e' ∨ c = 'E' ∨ c = 'j' ∨ c = 'J' then afterInteger m rest
        else leadingZeros m (zeros + 1)
      | [] => leadingZeros m (zeros + 1)

/-- Measure the number at the front of `text`, which begins with a digit, or with a point and a
digit. -/
def scan (text : List Char) : Numeral :=
  match text with
  | '.' :: rest => afterPoint 1 rest
  | '0' :: c :: rest =>
    if c = 'x' ∨ c = 'X' then inBase "hexadecimal" (fun d => (Text.baseDigit? 16 d).isSome) rest
    else if c = 'o' ∨ c = 'O' then inBase "octal" (fun d => (Text.baseDigit? 8 d).isSome) rest
    else if c = 'b' ∨ c = 'B' then inBase "binary" (fun d => (Text.baseDigit? 2 d).isSome) rest
    else afterZero (c :: rest)
  | _ =>
    match decimalTail 0 text with
    | .ok (m, rest) => afterInteger m rest
    | .error m => badDecimal m

end Numeral

end Evalbox.Lang
