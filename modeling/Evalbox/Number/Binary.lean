/-!
# The exact value of a float

A finite float is a whole number of units of a power of two. `Binary` keeps that number and the power;
everything that is written about a float is computed from them in exact arithmetic.
-/

namespace Evalbox.Number

/-- The amount `mantissa · 2 ^ exponent` of a float. The float below it is only half as far away as
the one above if `tight`. -/
structure Binary where
  mantissa : Nat
  exponent : Int
  tight : Bool
  deriving DecidableEq, Repr

/-- What a float is, with the sign. -/
inductive FloatShape where
  | nan
  | infinite (negative : Bool)
  | finite (negative : Bool) (amount : Binary)
  deriving DecidableEq, Repr

/-- Read a float. -/
def FloatShape.ofFloat (x : Float) : FloatShape :=
  let bits : Nat := x.toBits.toNat
  let negative := bits / Nat.pow 2 63 = 1
  let exponent : Nat := bits / Nat.pow 2 52 % 2048
  let fraction : Nat := bits % Nat.pow 2 52
  if exponent = 2047 then if fraction = 0 then .infinite negative else .nan
  else if exponent = 0 then .finite negative ⟨fraction, -1074, false⟩
  else .finite negative ⟨fraction + Nat.pow 2 52, (exponent : Int) - 1075, fraction = 0 && exponent > 1⟩

/-- The quotient that is nearest; of two, the even one. -/
def roundDiv (n d : Nat) : Nat :=
  let c := n / d
  let r := 2 * (n % d)
  if r > d || (r = d && c % 2 = 1) then c + 1 else c

/-- The float with `mantissa < 2 ^ 53` units of `2 ^ exponent`, where the exponent is -1074 or the
mantissa is at least `2 ^ 52`. -/
def pack (mantissa : Nat) (exponent : Int) : Float :=
  if exponent > 971 then 1.0 / 0.0
  else if mantissa < Nat.pow 2 52 then Float.ofBits mantissa.toUInt64
  else Float.ofBits ((exponent + 1075).toNat * Nat.pow 2 52 + (mantissa - Nat.pow 2 52)).toUInt64

/-- The float that is nearest to a fraction; of two, the one with the even mantissa. -/
def nearestFloat (n d : Nat) : Float :=
  if n = 0 || d = 0 then 0
  else
    let guess : Int := (n.log2 : Int) - d.log2 - 52
    let quotient (q : Int) : Nat × Nat := (n * Nat.pow 2 (-q).toNat, d * Nat.pow 2 q.toNat)
    let low := quotient (guess - 1)
    let q := if low.1 / low.2 < Nat.pow 2 53 then guess - 1 else guess
    let q := max q (-1074)
    let (a, b) := quotient q
    let m := roundDiv a b
    if m = Nat.pow 2 53 then pack (Nat.pow 2 52) (q + 1) else pack m q

namespace Binary

/-- `x · 2 ^ q` as a fraction of `10 ^ k`: numerator and denominator. -/
def ratio (x : Nat) (q k : Int) : Nat × Nat :=
  (x * Nat.pow 2 q.toNat * Nat.pow 10 (-k).toNat, Nat.pow 10 k.toNat * Nat.pow 2 (-q).toNat)

/-- The greatest multiple of `10 ^ k` that is not greater, as a count. -/
def floorAt (b : Binary) (k : Int) : Nat :=
  let (n, d) := ratio b.mantissa b.exponent k
  n / d

/-- The multiple of `10 ^ k` that is nearest, as a count; of two, the even one. -/
def roundAt (b : Binary) (k : Int) : Nat :=
  let (n, d) := ratio b.mantissa b.exponent k
  roundDiv n d

/-- How many digits stand in front of the decimal point; negative if zeros follow it directly. -/
def magnitude (b : Binary) : Int :=
  let guess : Int := (((b.mantissa.log2 : Int) + b.exponent) * 30103).fdiv 100000
  if b.floorAt (guess + 1) ≥ 1 then guess + 2
  else if b.floorAt guess ≥ 1 then guess + 1
  else guess

/-- Whether `c · 10 ^ k` is read back as this float: it is not beyond the middle between this float
and the next one on its side, and on the middle only if the mantissa is even. -/
def readsBack (b : Binary) (c : Nat) (k : Int) : Bool :=
  let q := b.exponent - 2
  let x := 4 * b.mantissa
  let even := b.mantissa % 2 = 0
  let (n₁, d₁) := ratio (x - if b.tight then 1 else 2) q k
  let (n₂, d₂) := ratio (x + 2) q k
  if even then n₁ ≤ c * d₁ && c * d₂ ≤ n₂ else n₁ < c * d₁ && c * d₂ < n₂

/-- The decimal with `n` digits that is read back as this float, if there is one; of two, the nearer. -/
def withDigits? (b : Binary) (magnitude : Int) (n : Nat) : Option (Nat × Int) :=
  let k := magnitude - n
  let low := b.floorAt k
  match b.readsBack low k, b.readsBack (low + 1) k with
  | true, true => some (b.roundAt k, k)
  | true, false => some (low, k)
  | false, true => some (low + 1, k)
  | false, false => none

/-- The shortest decimal that is read back as this float, as digits and a power of ten. -/
def shortest (b : Binary) : Nat × Int :=
  let m := b.magnitude
  let rec search : Nat → Nat → Nat × Int
    | _, 0 => (b.roundAt (m - 17), m - 17)
    | n, fuel + 1 =>
      match b.withDigits? m n with
      | some r => r
      | none => search (n + 1) fuel
  if b.mantissa = 0 then (0, 0) else search 1 17

/-- The decimal with `n` digits that is nearest, as digits and the place of the point. -/
def significant (b : Binary) (n : Nat) : Nat × Int :=
  if b.mantissa = 0 then (0, 1)
  else
    let m := b.magnitude
    let c := b.roundAt (m - n)
    if c ≥ Nat.pow 10 n then (c / 10, m + 1) else (c, m)

end Binary

end Evalbox.Number
