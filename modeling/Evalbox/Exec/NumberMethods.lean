import Evalbox.Exec.ContainerMethods
import Evalbox.Number.Binary

/-!
# Methods of numbers

What the methods of integers and floats answer: their bits, their bytes and their exact values as fractions.
-/

namespace Evalbox

namespace Number

/-- The digits of a float in base 16 with a power of two, as `0x1.8p+1` for three. -/
def hexText (x : Float) : String :=
  match FloatShape.ofFloat x with
  | .nan => "nan"
  | .infinite negative => if negative then "-inf" else "inf"
  | .finite negative a =>
    let sign := if negative then "-" else ""
    if a.mantissa = 0 then sign ++ "0x0.0p+0"
    else
      let whole := a.mantissa / Nat.pow 2 52
      let exponent := a.exponent + 52
      sign ++ "0x" ++ toString whole ++ "." ++ String.ofList (Text.hex 13 (a.mantissa % Nat.pow 2 52)) ++ "p" ++
        (if exponent < 0 then "-" else "+") ++ toString exponent.natAbs

/-- A float as a fraction in lowest terms, if it is finite. -/
def fraction? (x : Float) : Option (Int × Nat) :=
  match FloatShape.ofFloat x with
  | .finite negative a =>
    let top := a.mantissa * Nat.pow 2 a.exponent.toNat
    let bottom := Nat.pow 2 (-a.exponent).toNat
    let g := Nat.gcd top bottom
    some (if negative then -(top / g : Nat) else (top / g : Nat), bottom / g)
  | _ => none

end Number

namespace M

/-- Whether the least byte comes first, by the name of the order. -/
def isLittle (v : Option Value) : M Bool := do
  match v with
  | none | some (.text "big") => return false
  | some (.text "little") => return true
  | _ => valueError "byteorder must be either 'little' or 'big'"

/-- Whether an argument that may be given by name is true. -/
def flagArgument (kwargs : Names) (name : String) : M Bool :=
  match kwargs.lookup name with
  | some v => truthOf v
  | none => return false

/-- An integer in a number of bytes. -/
def intToBytes (n : Int) (args : List Value) (kwargs : Names) : M Value := do
  let signed ← flagArgument kwargs "signed"
  let given ← takeArguments "to_bytes" ["length", "byteorder"] args (kwargs.erase "signed")
  let size ← needInt ((argumentAt given 0).getD (.int 1))
  let little ← isLittle (argumentAt given 1)
  if size < 0 then valueError "length argument must be non-negative"
  else if n < 0 && !signed then raise "OverflowError" "can't convert negative int to unsigned"
  else
    let size := size.toNat
    let top : Int := Int.pow 256 size
    let fits := if signed then -top ≤ 2 * n && 2 * n < top else n < top
    if !fits then raise "OverflowError" "int too big to convert"
    else
      let bytes := (List.range size).map fun i => ((n % top).toNat / Nat.pow 256 i % 256).toUInt8
      return .bytes (if little then bytes else bytes.reverse)

/-- The integer that bytes spell. -/
def intFromBytes (args : List Value) (kwargs : Names) : M Value := do
  let signed ← flagArgument kwargs "signed"
  let given ← takeArguments "from_bytes" ["bytes", "byteorder"] args (kwargs.erase "signed")
  match argumentAt given 0 with
  | none => typeError "from_bytes() missing required argument 'bytes' (pos 1)"
  | some v =>
    let little ← isLittle (argumentAt given 1)
    let bytes ← match v with
      | .bytes bs => pure bs
      | v => do
        (← collectAll v).mapM fun x => do
          let n ← needInt x
          if 0 ≤ n && n < 256 then return n.toNat.toUInt8 else valueError "bytes must be in range(0, 256)"
    let n := Number.ofDigits 256 ((if little then bytes.reverse else bytes).map (·.toNat))
    let top : Nat := Nat.pow 256 bytes.length
    return .int (if signed && 2 * n ≥ top && !bytes.isEmpty then (n : Int) - top else n)

/-- A method of a number. -/
def numberMethod (self : Value) (name : String) (args : List Value) (kwargs : Names) : M Value := do
  match self, self.int?, name with
  | _, some n, "bit_length" => return .int (if n = 0 then 0 else n.natAbs.log2 + 1)
  | _, some n, "bit_count" => return .int ((Nat.toDigits 2 n.natAbs).count '1')
  | _, some n, "as_integer_ratio" => return .tuple [.int n, .int 1]
  | _, some n, "to_bytes" => intToBytes n args kwargs
  | _, some n, _ => return .int n
  | .float x, _, "is_integer" => return .bool (Number.whole? x).isSome
  | .float x, _, "hex" => return .text (Number.hexText x)
  | .float x, _, "as_integer_ratio" =>
    match Number.fraction? x with
    | some (n, d) => return .tuple [.int n, .int d]
    | none =>
      if x.isNaN then valueError "cannot convert NaN to integer ratio"
      else raise "OverflowError" "cannot convert Infinity to integer ratio"
  | .complex a b, _, _ => return .complex a (-b)
  | v, _, _ => return v

end M

end Evalbox
