import Evalbox.Number.Binary
import Evalbox.Text.Blank
import Evalbox.Text.Digit

/-!
# Numbers as text

Floats are written with as few digits as are needed to read them back: positional from 0.0001 up to
below 10 ^ 16, with an exponent of at least two digits otherwise. Numbers are read in decimal digits
of any script, with single underscores between digits and blanks around them.
-/

namespace Evalbox.Number

/-- Decimal digits of a number. -/
def digitsOf (n : Nat) : List Char := Nat.toDigits 10 n

/-- An exponent with its sign and at least two digits. -/
def exponentText (e : Int) : List Char :=
  let ds := digitsOf e.natAbs
  (if e < 0 then '-' else '+') :: (if ds.length < 2 then '0' :: ds else ds)

/-- Drop zeros at the end of digits, but not the first digit. -/
def dropZeros (ds : List Char) : List Char :=
  match (ds.reverse.dropWhile (· = '0')).reverse with
  | [] => ['0']
  | kept => kept

/-- Digits with the point behind the first `point` of them. -/
def positional (ds : List Char) (point : Int) : List Char :=
  if point ≤ 0 then "0.".toList ++ List.replicate (-point).toNat '0' ++ ds
  else
    let p := point.toNat
    if ds.length ≤ p then ds ++ List.replicate (p - ds.length) '0' ++ ".0".toList
    else ds.take p ++ '.' :: ds.drop p

/-- Digits with the point behind the first one, and an exponent. -/
def scientific (ds : List Char) (point : Int) : List Char :=
  let front := match ds with
    | [d] => [d]
    | d :: rest => d :: '.' :: rest
    | [] => []
  front ++ 'e' :: exponentText (point - 1)

/-- The shortest text of a float. -/
def shortestText (b : Binary) : List Char :=
  let (c, k) := b.shortest
  if c = 0 then "0.0".toList
  else
    let all := digitsOf c
    let point : Int := all.length + k
    let ds := dropZeros all
    if -4 < point && point ≤ 16 then positional ds point else scientific ds point

/-- A float as it is shown. -/
def floatText (x : Float) : String :=
  match FloatShape.ofFloat x with
  | .nan => "nan"
  | .infinite negative => if negative then "-inf" else "inf"
  | .finite negative b => String.ofList ((if negative then ['-'] else []) ++ shortestText b)

/-- An integer in decimal. -/
def intText (n : Int) : String := toString n

/-- The float nearest to `mantissa · 10 ^ exponent`. Where the result is zero or infinite in any case the
exponent is not computed with. -/
def ofDecimal (mantissa : Nat) (exponent : Int) : Float :=
  let size : Int := (digitsOf mantissa).length + exponent
  if mantissa = 0 || size < -400 then 0
  else if size > 400 then 1.0 / 0.0
  else nearestFloat (mantissa * Nat.pow 10 exponent.toNat) (Nat.pow 10 (-exponent).toNat)

/-- Digits with single underscores between them. Answers the digits and what follows. -/
def readDigits (digit? : Char → Option Nat) : List Char → List Nat × List Char
  | [] => ([], [])
  | c :: rest =>
    match digit? c with
    | none => ([], c :: rest)
    | some d =>
      let (ds, after) := match rest with
        | '_' :: more =>
          match readDigits digit? more with
          | ([], _) => ([], '_' :: more)
          | found => found
        | other => readDigits digit? other
      (d :: ds, after)

/-- The number that digits stand for. -/
def ofDigits (base : Nat) (ds : List Nat) : Nat := ds.foldl (fun n d => n * base + d) 0

/-- A sign and what follows; `true` for a minus. -/
def readSign : List Char → Bool × List Char
  | '-' :: rest => (true, rest)
  | '+' :: rest => (false, rest)
  | rest => (false, rest)

/-- How many digits an integer may have in text. -/
def digitLimit : Nat := 4300

/-- Why a text is no integer. -/
inductive IntegerFault where
  | malformed
  | tooLong (digits : Nat)
  deriving DecidableEq, Repr

/-- Read an integer with blanks around it. -/
def readInteger (text : List Char) : Except IntegerFault Int :=
  let (negative, body) := readSign (Text.trim text)
  match readDigits Text.digitValue? body with
  | ([], _) | (_, _ :: _) => .error .malformed
  | (ds, []) =>
    if ds.length > digitLimit then .error (.tooLong ds.length)
    else
      let n : Int := ofDigits 10 ds
      .ok (if negative then -n else n)

/-- Read a float with blanks around it. -/
def readFloat? (text : List Char) : Option Float :=
  let (negative, body) := readSign (Text.trim text)
  let signed (x : Float) : Float := if negative then -x else x
  let word := String.ofList (body.map Char.toLower)
  if word = "inf" || word = "infinity" then some (signed (1.0 / 0.0))
  else if word = "nan" then some (signed (0.0 / 0.0).abs)
  else
    let (whole, rest) := readDigits Text.digitValue? body
    let (fraction, rest) := match rest with
      | '.' :: more => readDigits Text.digitValue? more
      | _ => ([], rest)
    if whole.isEmpty && fraction.isEmpty then none
    else
      let value (e : Int) : Float := signed (ofDecimal (ofDigits 10 (whole ++ fraction)) (e - fraction.length))
      match rest with
      | [] => some (value 0)
      | c :: more =>
        if c = 'e' || c = 'E' then
          let (minus, ds) := readSign more
          match readDigits Text.digitValue? ds with
          | ([], _) | (_, _ :: _) => none
          | (es, []) => some (value (if minus then -(ofDigits 10 es : Int) else ofDigits 10 es))
        else none

end Evalbox.Number
