import Evalbox.Lang.Token
import Evalbox.Number.Text
import Evalbox.Text.Digit

/-!
# The values of literals

Numbers are read with their underscores dropped. The body of a string literal is unescaped by
`Escape.text` or `Escape.bytes`: both answer the value together with the first escape that is not
one (it stands for itself), or the fault that ends the reading.
-/

namespace Evalbox.Lang

/-- The value of a run of digits in a base; characters that are no digits are skipped. -/
def digitsValue (base : Nat) (ds : List Char) : Nat :=
  ds.foldl (fun n c => match Text.baseDigit? base c with
    | some d => n * base + d
    | none => n) 0

/-- The values that a numeric literal can have. -/
inductive NumberValue where
  | int (value : Nat)
  | float (value : Float)
  | imaginary (value : Float)

/-- The float that is nearest to a decimal numeral: integer digits, fraction digits, exponent. -/
def nearestFloat (whole fraction : List Char) (exponent : Int) : Float :=
  Number.ofDecimal (digitsValue 10 (whole ++ fraction)) (exponent - fraction.length)

/-- Read an unsigned decimal with optional fraction and exponent. -/
def decimalFloat (text : List Char) : Float :=
  let whole := text.takeWhile Char.isDigit
  let rest := text.dropWhile Char.isDigit
  let (fraction, rest) := match rest with
    | '.' :: rest => (rest.takeWhile Char.isDigit, rest.dropWhile Char.isDigit)
    | _ => ([], rest)
  let exponent : Int := match rest with
    | _ :: '-' :: ds => -(digitsValue 10 ds : Int)
    | _ :: '+' :: ds => digitsValue 10 ds
    | _ :: ds => digitsValue 10 ds
    | [] => 0
  nearestFloat whole fraction exponent

/-- The value of a well-formed numeric literal. -/
def NumberValue.ofLiteral (literal : List Char) : NumberValue :=
  let text := literal.filter (· ≠ '_')
  match text with
  | '0' :: c :: ds =>
    if c = 'x' ∨ c = 'X' then .int (digitsValue 16 ds)
    else if c = 'o' ∨ c = 'O' then .int (digitsValue 8 ds)
    else if c = 'b' ∨ c = 'B' then .int (digitsValue 2 ds)
    else decimal text
  | _ => decimal text
where
  decimal (text : List Char) : NumberValue :=
    match text.getLast? with
    | some 'j' | some 'J' => .imaginary (decimalFloat text.dropLast)
    | _ => if text.all Char.isDigit then .int (digitsValue 10 text) else .float (decimalFloat text)

namespace Escape

/-- What is wrong with the escapes of a text, at bytes `start` up to `stop` of its body, where every
character beyond ASCII counts as ten. -/
structure Fault where
  start : Nat
  stop : Nat
  reason : String
  deriving DecidableEq, Repr

/-- The report of a fault. -/
def Fault.message (f : Fault) : String :=
  if f.start + 1 = f.stop then
    "'unicodeescape' codec can't decode byte 0x5c in position " ++ toString f.start ++ ": " ++ f.reason
  else
    "'unicodeescape' codec can't decode bytes in position " ++ toString f.start ++ "-" ++
      toString (f.stop - 1) ++ ": " ++ f.reason

/-- Up to `n` digits of a base: their value, how many there are, and what follows. -/
def takeDigits (base : Nat) : Nat → Nat → Nat → List Char → Nat × Nat × List Char
  | n + 1, value, count, c :: rest =>
    match Text.baseDigit? base c with
    | some d => takeDigits base n (value * base + d) (count + 1) rest
    | none => (value, count, c :: rest)
  | _, value, count, rest => (value, count, rest)

/-- Escapes of one letter. -/
def simple? (c : Char) : Option Char :=
  [('\\', '\\'), ('\'', '\''), ('"', '"'), ('a', '\x07'), ('b', '\x08'), ('f', '\x0c'), ('n', '\n'),
   ('r', '\r'), ('t', '\t'), ('v', '\x0b')].lookup c

/-- How many bytes a character counts in a fault. -/
def width (c : Char) : Nat := if c.toNat < 128 then 1 else 10

/-- The character of a code point; a surrogate becomes the replacement character. -/
def charOf (n : Nat) : Char := if n.isValidChar then Char.ofNat n else '\ufffd'

/-- Unescape the body of a text literal. `pos` counts bytes, `odd` is the first unknown escape, and
`done` the characters so far, last first. -/
def text : Nat → List Char → Nat → Option Char → List Char → Except Fault (List Char × Option Char)
  | 0, _, _, odd, done => .ok (done.reverse, odd)
  | _ + 1, [], _, odd, done => .ok (done.reverse, odd)
  | fuel + 1, '\\' :: rest, pos, odd, done =>
    match rest with
    | [] => .error ⟨pos, pos + 1, "\\ at end of string"⟩
    | '\n' :: rest => text fuel rest (pos + 2) odd done
    | c :: more =>
      match simple? c with
      | some d => text fuel more (pos + 2) odd (d :: done)
      | none =>
        if (Text.baseDigit? 8 c).isSome then
          let (v, n, more) := takeDigits 8 3 0 0 rest
          text fuel more (pos + 1 + n) odd (charOf v :: done)
        else
          let hex (size : Nat) (spelling : String) : Except Fault (List Char × Option Char) :=
            let (v, n, more) := takeDigits 16 size 0 0 more
            if n < size then .error ⟨pos, pos + 2 + n, "truncated \\" ++ spelling ++ " escape"⟩
            else if v > 0x10ffff then .error ⟨pos, pos + 2 + n, "illegal Unicode character"⟩
            else text fuel more (pos + 2 + n) odd (charOf v :: done)
          if c = 'x' then hex 2 "xXX"
          else if c = 'u' then hex 4 "uXXXX"
          else if c = 'U' then hex 8 "UXXXXXXXX"
          else if c = 'N' then
            match more with
            | '\x7b' :: name =>
              let n := (name.takeWhile (· ≠ '\x7d')).length
              if n < name.length ∧ n > 0 then .error ⟨pos, pos + 4 + n, "unknown Unicode character name"⟩
              else .error ⟨pos, pos + 3, "malformed \\N character escape"⟩
            | _ => .error ⟨pos, pos + 2, "malformed \\N character escape"⟩
          else if c.toNat ≥ 128 then text fuel rest (pos + 6) odd ('\\' :: done)
          else text fuel more (pos + 2) (odd <|> some c) (c :: '\\' :: done)
  | fuel + 1, c :: rest, pos, odd, done => text fuel rest (pos + width c) odd (c :: done)

/-- Unescape the body of a bytes literal, which is ASCII. The error is the position of an incomplete
hexadecimal escape. -/
def bytes : Nat → List Char → Nat → Option Char → List UInt8 → Except Nat (List UInt8 × Option Char)
  | 0, _, _, odd, done => .ok (done.reverse, odd)
  | _ + 1, [], _, odd, done => .ok (done.reverse, odd)
  | fuel + 1, '\\' :: rest, pos, odd, done =>
    match rest with
    | [] => .ok (('\\'.toNat.toUInt8 :: done).reverse, odd)
    | '\n' :: rest => bytes fuel rest (pos + 2) odd done
    | c :: more =>
      match simple? c with
      | some d => bytes fuel more (pos + 2) odd (d.toNat.toUInt8 :: done)
      | none =>
        if (Text.baseDigit? 8 c).isSome then
          let (v, n, more) := takeDigits 8 3 0 0 rest
          bytes fuel more (pos + 1 + n) odd (v.toUInt8 :: done)
        else if c = 'x' then
          let (v, n, more) := takeDigits 16 2 0 0 more
          if n < 2 then .error pos else bytes fuel more (pos + 4) odd (v.toUInt8 :: done)
        else bytes fuel more (pos + 2) (odd <|> some c) (c.toNat.toUInt8 :: '\\'.toNat.toUInt8 :: done)
  | fuel + 1, c :: rest, pos, odd, done => bytes fuel rest (pos + 1) odd (c.toNat.toUInt8 :: done)

end Escape

/-- A string literal taken apart: its letters in lower case, and what stands between its quotes. -/
structure StringLiteral where
  letters : List Char
  body : List Char
  deriving DecidableEq, Repr

namespace StringLiteral

/-- Take a string literal apart. -/
def ofLexeme (text : List Char) : StringLiteral :=
  let letters := text.takeWhile fun c => c ≠ '\'' && c ≠ '"'
  let quoted := text.drop letters.length
  let size := match quoted with
    | a :: b :: c :: _ => if a = b ∧ b = c ∧ quoted.length ≥ 6 then 3 else 1
    | _ => 1
  ⟨letters.map Char.toLower, (quoted.drop size).take (quoted.length - 2 * size)⟩

def isBytes (s : StringLiteral) : Bool := s.letters.contains 'b'
def isRaw (s : StringLiteral) : Bool := s.letters.contains 'r'
def isFormatted (s : StringLiteral) : Bool := s.letters.contains 'f'
def isUnicode (s : StringLiteral) : Bool := s.letters.contains 'u'

end StringLiteral

end Evalbox.Lang
