import Evalbox.Number.Text

/-!
# Arithmetic on floats

Operations on floats whose results are exact, or rounded once: remainders, quotients of integers,
comparison with integers, and rounding to decimal places.
-/

namespace Evalbox.Number

/-- The float nearest to an integer, unless it is too large. -/
def floatOfInt? (n : Int) : Option Float :=
  let x := nearestFloat n.natAbs 1
  if x.isInf then none else some (if n < 0 then -x else x)

/-- The integer part of a finite float. -/
def truncate? (x : Float) : Option Int :=
  match FloatShape.ofFloat x with
  | .finite negative b =>
    let n : Int := ((b.mantissa * Nat.pow 2 b.exponent.toNat / Nat.pow 2 (-b.exponent).toNat : Nat) : Int)
    some (if negative then -n else n)
  | _ => none

/-- The integer that a float equals, if it does. -/
def whole? (x : Float) : Option Int := if x.floor == x then truncate? x else none

/-- Compare an integer with a float, both of them exact. -/
def compareInt (n : Int) (x : Float) : Option Ordering :=
  match FloatShape.ofFloat x with
  | .nan => none
  | .infinite negative => some (if negative then .gt else .lt)
  | .finite negative b =>
    let m : Int := ((b.mantissa * Nat.pow 2 b.exponent.toNat : Nat) : Int)
    some (compare (n * ((Nat.pow 2 (-b.exponent).toNat : Nat) : Int)) (if negative then -m else m))

def compareFloat (x y : Float) : Option Ordering :=
  if x < y then some .lt else if x > y then some .gt else if x == y then some .eq else none

/-- The remainder of a division that rounds toward zero. -/
def remainder (x y : Float) : Float :=
  match FloatShape.ofFloat x, FloatShape.ofFloat y with
  | .finite nx a, .finite _ b =>
    let e := min a.exponent b.exponent
    let m := a.mantissa * Nat.pow 2 (a.exponent - e).toNat
    let n := b.mantissa * Nat.pow 2 (b.exponent - e).toNat
    if n = 0 then 0.0 / 0.0
    else
      let r := m % n
      let f := nearestFloat (r * Nat.pow 2 e.toNat) (Nat.pow 2 (-e).toNat)
      if nx then -f else f
  | .finite .., .infinite _ => x
  | _, _ => 0.0 / 0.0

/-- Whether a float has the sign bit. -/
def isNegative (x : Float) : Bool :=
  match FloatShape.ofFloat x with
  | .finite n _ => n
  | .infinite n => n
  | .nan => false

def withSign (x sign : Float) : Float := if isNegative sign then -x.abs else x.abs

/-- Quotient and remainder of a division that rounds down; the remainder has the sign of the divisor. -/
def divMod (x y : Float) : Float × Float :=
  let m := remainder x y
  let d := (x - m) / y
  let (m, d) :=
    if m != 0 then if (y < 0) != (m < 0) then (m + y, d - 1) else (m, d)
    else (withSign 0 y, d)
  let q :=
    if d != 0 then
      let f := d.floor
      if d - f > 0.5 then f + 1 else f
    else withSign 0 (x / y)
  (q, m)

/-- The float nearest to the quotient of two integers, unless it is too large. -/
def divide? (a b : Int) : Option Float :=
  let x := nearestFloat a.natAbs b.natAbs
  if x.isInf then none else some (if (a < 0) != (b < 0) then -x else x)

/-- A float rounded to decimal places; of two, to the even digit. -/
def roundTo (x : Float) (places : Int) : Float :=
  match FloatShape.ofFloat x with
  | .finite negative b =>
    let c := b.roundAt (-places)
    let r := nearestFloat (c * Nat.pow 10 (-places).toNat) (Nat.pow 10 places.toNat)
    if negative then -r else r
  | _ => x

/-- An integer rounded to a power of ten; of two, to the even digit. -/
def roundInt (n : Int) (places : Int) : Int :=
  if places ≥ 0 then n
  else
    let p := Nat.pow 10 (-places).toNat
    let c : Int := roundDiv n.natAbs p * p
    if n < 0 then -c else c

/-- A float rounded to the nearest integer; of two, the even one. -/
def roundWhole? (x : Float) : Option Int :=
  match FloatShape.ofFloat x with
  | .finite negative b =>
    let n : Int := b.roundAt 0
    some (if negative then -n else n)
  | _ => none

end Evalbox.Number

/-!
## Numbers in a layout

Numbers written with fixed places, with an exponent, or with as many digits as they are given; digits
in groups; and texts padded to a width.
-/

namespace Evalbox.Number

/-- How a float is written. -/
inductive FloatStyle where
  /-- so many places behind the point -/
  | fixed
  /-- one digit in front of the point, and an exponent -/
  | scientific
  /-- so many significant digits, in whichever form is shorter -/
  | general
  deriving DecidableEq, Repr

/-- Digits with zeros in front up to a length. -/
def zeroPadded (n : Nat) (ds : List Char) : List Char := List.replicate (n - ds.length) '0' ++ ds

/-- Digits behind a point, or nothing; the point is kept if `keep`. -/
def fraction (keep : Bool) (ds : List Char) : List Char :=
  if ds.isEmpty then if keep then ['.'] else [] else '.' :: ds

/-- Zeros at the end are dropped. -/
def dropTrailing (ds : List Char) : List Char := (ds.reverse.dropWhile (· = '0')).reverse

/-- A fixed number of places. -/
def fixedText (b : Binary) (places : Nat) (keep : Bool) : List Char :=
  let ds := zeroPadded (places + 1) (digitsOf (b.roundAt (-(places : Int))))
  ds.take (ds.length - places) ++ fraction keep (ds.drop (ds.length - places))

/-- One digit in front of the point. -/
def scientificText (b : Binary) (places : Nat) (keep : Bool) : List Char :=
  let (c, point) := b.significant (places + 1)
  let ds := zeroPadded (places + 1) (digitsOf c)
  ds.take 1 ++ fraction keep (ds.drop 1) ++ 'e' :: exponentText (point - 1)

/-- So many significant digits; positional if the exponent is at least -4 and less than their number.
Zeros at the end are dropped unless `keep`. -/
def generalText (b : Binary) (digits : Nat) (keep : Bool) : List Char :=
  let n := max digits 1
  let (c, point) := b.significant n
  let ds := zeroPadded n (digitsOf c)
  let trim (f : List Char) : List Char := if keep then f else dropTrailing f
  if -4 ≤ point - 1 && point - 1 < n then
    if point ≤ 0 then '0' :: fraction keep (trim (List.replicate (-point).toNat '0' ++ ds))
    else ds.take point.toNat ++ fraction keep (trim (ds.drop point.toNat))
  else ds.take 1 ++ fraction keep (trim (ds.drop 1)) ++ 'e' :: exponentText (point - 1)

def FloatStyle.text (s : FloatStyle) (b : Binary) (precision : Nat) (keep : Bool) : List Char :=
  match s with
  | fixed => fixedText b precision keep
  | scientific => scientificText b precision keep
  | general => generalText b precision keep

/-- Put a separator between groups of digits, counted from the end. -/
def grouped (size : Nat) (mark : Char) (ds : List Char) : List Char :=
  let rec go : Nat → Nat → List Char → List Char
    | _, _, [] => []
    | 0, _, rest => rest
    | fuel + 1, n, c :: rest =>
      if n = size && size > 0 then mark :: c :: go fuel 1 rest else c :: go fuel (n + 1) rest
  (go ds.length 0 ds.reverse).reverse

/-- Digits of a number in a base up to sixteen. -/
def baseDigits (base n : Nat) (upper : Bool) : List Char :=
  let ds := Nat.toDigits base n
  if upper then ds.map Char.toUpper else ds

end Evalbox.Number
