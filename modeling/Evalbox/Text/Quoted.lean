import Evalbox.Text.Printable

/-!
# Quoted text

Text and bytes as they are shown inside messages and values: between quotes, with the characters that
would not be seen or would end the text written as escapes. Single quotes are used unless the text
holds one and no double quote.
-/

namespace Evalbox.Text

/-- A number in at least `width` hexadecimal digits. -/
def hex (width n : Nat) : List Char :=
  let ds := Nat.toDigits 16 n
  List.replicate (width - ds.length) '0' ++ ds

/-- The quote for a text. -/
def quoteFor (text : List Char) : Char :=
  if text.contains '\'' && !text.contains '"' then '"' else '\''

/-- A character as an escape by its number, in as many digits as it needs. -/
def escapeCode (c : Char) : List Char :=
  if c.toNat < 0x100 then '\\' :: 'x' :: hex 2 c.toNat
  else if c.toNat < 0x10000 then '\\' :: 'u' :: hex 4 c.toNat
  else '\\' :: 'U' :: hex 8 c.toNat

/-- A character between quotes `q`. -/
def escapeChar (q c : Char) : List Char :=
  if c = q || c = '\\' then ['\\', c]
  else if c = '\n' then ['\\', 'n']
  else if c = '\r' then ['\\', 'r']
  else if c = '\t' then ['\\', 't']
  else if isPrintable c then [c]
  else escapeCode c

/-- A text between quotes. -/
def quoted (text : List Char) : List Char :=
  let q := quoteFor text
  q :: text.flatMap (escapeChar q) ++ [q]

/-- A text between quotes. -/
def quote (text : String) : String := String.ofList (quoted text.toList)

/-- A text between quotes in ASCII. -/
def quoteAscii (text : String) : String :=
  let escape (c : Char) : List Char :=
    if c.toNat < 128 then [c] else escapeCode c
  String.ofList ((quoted text.toList).flatMap escape)

/-- Bytes between quotes, with the letter `b` in front. Bytes outside printable ASCII are escapes. -/
def quoteBytes (bytes : List UInt8) : String :=
  let chars := bytes.map fun b => Char.ofNat b.toNat
  let q := quoteFor chars
  let escape (c : Char) : List Char :=
    if c.toNat < 127 then escapeChar q c else escapeCode c
  String.ofList ('b' :: q :: chars.flatMap escape ++ [q])

end Evalbox.Text
