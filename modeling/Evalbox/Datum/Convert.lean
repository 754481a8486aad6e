import Evalbox.Datum.Basic
import Evalbox.Number.Arithmetic
import Evalbox.Failure

/-!
# Reading data as numbers

`Datum.toFloat` and `Datum.toInt` take numbers and texts that hold a number; an integer drops the
fraction of a float. Everything else is a fault that says what was given.
-/

namespace Evalbox

namespace Number

def tooLongText (digits : Nat) : String :=
  "Exceeds the limit (" ++ toString digitLimit ++ " digits) for integer string conversion: value has " ++
    toString digits ++ " digits; use sys.set_int_max_str_digits() to increase the limit"

end Number

namespace Datum

/-- ASCII bytes as characters. -/
def bytesAsText (bs : List UInt8) : List Char := bs.map fun b => Char.ofNat b.toNat

def toFloat (d : Datum) : Except Fault Float :=
  let read (cs : List Char) : Except Fault Float :=
    match Number.readFloat? cs with
    | some x => .ok x
    | Option.none => .error (.value ("could not convert string to float: " ++ d.shown))
  match d with
  | bool b => .ok (if b then 1 else 0)
  | int n =>
    match Number.floatOfInt? n with
    | some x => .ok x
    | Option.none => .error (.overflow "int too large to convert to float")
  | float x => .ok x
  | text s => read s.toList
  | bytes bs => read (bytesAsText bs)
  | d => .error (.type ("float() argument must be a string or a real number, not '" ++ d.typeName ++ "'"))

def toInt (d : Datum) : Except Fault Int :=
  let read (cs : List Char) : Except Fault Int :=
    match Number.readInteger cs with
    | .ok n => .ok n
    | .error .malformed => .error (.value ("invalid literal for int() with base 10: " ++ d.shown))
    | .error (.tooLong n) => .error (.value (Number.tooLongText n))
  match d with
  | bool b => .ok (if b then 1 else 0)
  | int n => .ok n
  | float x =>
    match Number.truncate? x with
    | some n => .ok n
    | Option.none =>
      if x.isNaN then .error (.value "cannot convert float NaN to integer")
      else .error (.overflow "cannot convert float infinity to integer")
  | text s => read s.toList
  | bytes bs => read (bytesAsText bs)
  | d => .error (.type
      ("int() argument must be a string, a bytes-like object or a real number, not '" ++ d.typeName ++ "'"))

end Datum

end Evalbox
