import Evalbox.Exec.Compare

/-!
# Arithmetic of values

Unary and binary operators. Operands are tried as numbers, then as texts and containers, then by the
methods of a snippet's classes; what is left over is refused with a text that names both classes.
-/

namespace Evalbox.M

open Lang

/-- How an operator is written. -/
def symbolOf : BinaryOp → String
  | .add => "+" | .sub => "-" | .mul => "*" | .matMul => "@" | .div => "/" | .mod => "%"
  | .pow => "**" | .leftShift => "<<" | .rightShift => ">>" | .bitOr => "|" | .bitXor => "^"
  | .bitAnd => "&" | .floorDiv => "//"

/-- The middle of the method names of an operator. -/
def methodStem : BinaryOp → String
  | .add => "add" | .sub => "sub" | .mul => "mul" | .matMul => "matmul" | .div => "truediv"
  | .mod => "mod" | .pow => "pow" | .leftShift => "lshift" | .rightShift => "rshift"
  | .bitOr => "or" | .bitXor => "xor" | .bitAnd => "and" | .floorDiv => "floordiv"

/-- Refuse an operation. -/
def refuseBinary {α : Type} (symbol : String) (a b : Value) : M α := do
  let symbol := if symbol = "**" then "** or pow()" else symbol
  typeError ("unsupported operand type(s) for " ++ symbol ++ ": '" ++ (← typeName a) ++ "' and '" ++
    (← typeName b) ++ "'")

def zeroDivision {α : Type} (text : String) : M α := raise "ZeroDivisionError" text

/-- An integer as a float. -/
def floatOf (n : Int) : M Float := do
  match Number.floatOfInt? n with
  | some x => return x
  | none => raise "OverflowError" "int too large to convert to float"

/-- Two numbers as floats. -/
def floats? (a b : Value) : Option (M (Float × Float)) :=
  match a, b with
  | .float x, .float y => some (pure (x, y))
  | .float x, w => w.int?.map fun n => do return (x, ← floatOf n)
  | v, .float y => v.int?.map fun n => do return (← floatOf n, y)
  | _, _ => none

/-- Bits of an operation on two integers of any sign. -/
def bitwise (op : Nat → Nat → Nat) (a b : Int) : Int :=
  let width := (max a.natAbs b.natAbs).log2 + 2
  let m : Nat := Nat.pow 2 width
  let low (n : Int) : Nat := (n % (m : Int)).toNat
  let r := op (low a) (low b)
  if r ≥ m / 2 then (r : Int) - m else r

/-- An operation on integers. -/
def intBinary (op : BinaryOp) (a b : Int) : M Value :=
  match op with
  | .add => return .int (a + b)
  | .sub => return .int (a - b)
  | .mul => return .int (a * b)
  | .div =>
    if b = 0 then zeroDivision "division by zero"
    else match Number.divide? a b with
      | some x => return .float x
      | none => raise "OverflowError" "integer division result too large for a float"
  | .floorDiv => if b = 0 then zeroDivision "integer division or modulo by zero" else return .int (a.fdiv b)
  | .mod => if b = 0 then zeroDivision "integer modulo by zero" else return .int (a.fmod b)
  | .pow => do
    if b ≥ 0 then return .int (Int.pow a b.toNat)
    else if a = 0 then zeroDivision "0.0 cannot be raised to a negative power"
    else return .float (Float.pow (← floatOf a) (← floatOf b))
  | .leftShift =>
    if b < 0 then valueError "negative shift count" else return .int (a * Int.pow 2 b.toNat)
  | .rightShift =>
    if b < 0 then valueError "negative shift count" else return .int (a.fdiv (Int.pow 2 b.toNat))
  | .bitOr => return .int (bitwise (· ||| ·) a b)
  | .bitXor => return .int (bitwise (· ^^^ ·) a b)
  | .bitAnd => return .int (bitwise (· &&& ·) a b)
  | .matMul => refuseBinary "@" (.int a) (.int b)

/-- The product of two complex numbers. -/
def complexProduct (p q r s : Float) : Float × Float := (p * r - q * s, p * s + q * r)

/-- A complex number to a whole power, by repeated squaring. `done` collects the factors of the lower bits;
the fuel bounds the number of bits. -/
def complexTimes : Nat → Nat → Float × Float → Float × Float → Float × Float
  | 0, _, done, _ => done
  | fuel + 1, n, done, (x, y) =>
    if n = 0 then done
    else
      let done := if n % 2 = 1 then complexProduct done.1 done.2 x y else done
      complexTimes fuel (n / 2) done (complexProduct x y x y)

/-- The power of a complex number, by its length and its angle. -/
def polarPower (p q r s : Float) : Float × Float :=
  let size := (p * p + q * q).sqrt
  let size := if q == 0 then p.abs else if p == 0 then q.abs else size
  let angle := Float.atan2 q p
  let length := if s == 0 then Float.pow size r else Float.pow size r / (angle * s).exp
  let phase := if s == 0 then angle * r else angle * r + s * size.log
  (length * phase.cos, length * phase.sin)

/-- A power of complex numbers; small whole exponents are multiplied out. -/
def complexPower (p q r s : Float) : M Value := do
  if r == 0 && s == 0 then return .complex 1 0
  else if p == 0 && q == 0 then
    if s != 0 || r < 0 then zeroDivision "0.0 to a negative or complex power" else return .complex 0 0
  else
    let (x, y) ← (match Number.whole? r with
      | some n =>
        if s == 0 && n.natAbs ≤ 100 then do
          let (x, y) := complexTimes (n.natAbs.log2 + 1) n.natAbs (1, 0) (p, q)
          if n < 0 then
            let d := x * x + y * y
            return (x / d, -y / d)
          else return (x, y)
        else return polarPower p q r s
      | none => return polarPower p q r s : M (Float × Float))
    return .complex x y

/-- An operation on floats. -/
def floatBinary (op : BinaryOp) (x y : Float) : M Value :=
  match op with
  | .add => return .float (x + y)
  | .sub => return .float (x - y)
  | .mul => return .float (x * y)
  | .div => if y == 0 then zeroDivision "float division by zero" else return .float (x / y)
  | .floorDiv =>
    if y == 0 then zeroDivision "float floor division by zero" else return .float (Number.divMod x y).1
  | .mod => if y == 0 then zeroDivision "float modulo" else return .float (Number.divMod x y).2
  | .pow =>
    if x == 0 && y < 0 then zeroDivision "0.0 cannot be raised to a negative power"
    else if x < 0 && x.isFinite && y.isFinite && (Number.whole? y).isNone then complexPower x 0 y 0
    else
      let r := Float.pow x y
      if r.isInf && !x.isInf && !y.isInf then
        raiseWith "OverflowError" [.int 34, .text "Numerical result out of range"] []
      else return .float r
  | op => refuseBinary (symbolOf op) (.float x) (.float y)

/-- A list or text repeated. -/
def repeated {α : Type} (xs : List α) (n : Int) : List α := (List.replicate n.toNat xs).flatten

/-- What follows behind a container in a concatenation. -/
def concatenate (a b : Value) : M (Option Value) := do
  let only (kind : String) : M (Option Value) := do
    typeError ("can only concatenate " ++ kind ++ " (not \"" ++ (← typeName b) ++ "\") to " ++ kind)
  match a, b with
  | .text s, .text t => return some (.text (s ++ t))
  | .text _, _ => if (← userMethod b "__radd__").isSome then return none else only "str"
  | .bytes s, .bytes t => return some (.bytes (s ++ t))
  | .bytes _, _ => typeError ("can't concat " ++ (← typeName b) ++ " to bytes")
  | .tuple xs, .tuple ys => return some (.tuple (xs ++ ys))
  | .tuple _, _ => if (← userMethod b "__radd__").isSome then return none else only "tuple"
  | .ref r, _ =>
    match ← obj r with
    | .list xs =>
      match b with
      | .ref s =>
        match ← obj s with
        | .list ys => return some (← make (.list (xs ++ ys)))
        | _ => if (← userMethod b "__radd__").isSome then return none else only "list"
      | _ => only "list"
    | _ => return none
  | _, _ => return none

/-- A container times a number. -/
def multiply (a b : Value) : M (Option Value) := do
  let isSequence (v : Value) : M Bool := do
    match v with
    | .text _ | .bytes _ | .tuple _ => return true
    | .ref r => match ← obj r with
      | .list _ => return true
      | _ => return false
    | _ => return false
  let times (v : Value) (n : Int) : M (Option Value) := do
    match v with
    | .text s => return some (.text (String.ofList (repeated s.toList n)))
    | .bytes s => return some (.bytes (repeated s n))
    | .tuple xs => return some (.tuple (repeated xs n))
    | .ref r => match ← obj r with
      | .list xs => return some (← make (.list (repeated xs.toList n).toArray))
      | _ => return none
    | _ => return none
  let refuse (v : Value) : M (Option Value) := do
    typeError ("can't multiply sequence by non-int of type '" ++ (← typeName v) ++ "'")
  if ← isSequence a then
    match b.int? with
    | some n => times a n
    | none => if (← userMethod b "__rmul__").isSome then return none else refuse b
  else if ← isSequence b then
    match a.int? with
    | some n => times b n
    | none => if (← userMethod a "__mul__").isSome then return none else refuse a
  else return none

/-- Operators on sets and dicts. -/
def setBinary (op : BinaryOp) (a b : Value) : M (Option Value) := do
  match a, b with
  | .ref r, .ref s =>
    match ← obj r, ← obj s with
    | .set f xs, .set _ ys =>
      let inside (zs : List Value) (x : Value) : Bool := zs.any (·.sameKey x)
      let give (zs : List Value) : M (Option Value) := do return some (← make (.set f zs))
      match op with
      | .sub => give (xs.filter fun x => !inside ys x)
      | .bitAnd => give (xs.filter (inside ys))
      | .bitOr => give (xs ++ ys.filter fun y => !inside xs y)
      | .bitXor => give (xs.filter (fun x => !inside ys x) ++ ys.filter fun y => !inside xs y)
      | _ => return none
    | .dict xs, .dict ys =>
      match op with
      | .bitOr =>
        let merged := ys.foldl (fun (acc : List (Value × Value)) (k, v) =>
          if acc.any (·.1.sameKey k) then acc.map fun e => if e.1.sameKey k then (e.1, v) else e
          else acc ++ [(k, v)]) xs
        return some (← make (.dict merged))
      | _ => return none
    | _, _ => return none
  | _, _ => return none

/-- Complex numbers. -/
def complexBinary (op : BinaryOp) (a b : Value) : M (Option Value) := do
  let parts (v : Value) : M (Option (Float × Float)) := do
    match v with
    | .complex x y => return some (x, y)
    | .float x => return some (x, 0)
    | v => match v.int? with
      | some n => return some (← floatOf n, 0)
      | none => return none
  match a, b with
  | .complex .., _ | _, .complex .. =>
    match ← parts a, ← parts b with
    | some (p, q), some (r, s) =>
      match op with
      | .add => return some (.complex (p + r) (q + s))
      | .sub => return some (.complex (p - r) (q - s))
      | .mul =>
        let (x, y) := complexProduct p q r s
        return some (.complex x y)
      | .pow => return some (← complexPower p q r s)
      | .div =>
        let d := r * r + s * s
        if d == 0 then zeroDivision "complex division by zero"
        else return some (.complex ((p * r + q * s) / d) ((q * r - p * s) / d))
      | _ => return none
    | _, _ => return none
  | _, _ => return none

/-- An operation on values of the language's own types. -/
def nativeBinary (op : BinaryOp) (a b : Value) : M (Option Value) := do
  match a.int?, b.int? with
  | some m, some n =>
    match op, a, b with
    | .bitOr, .bool x, .bool y => return some (.bool (x || y))
    | .bitAnd, .bool x, .bool y => return some (.bool (x && y))
    | .bitXor, .bool x, .bool y => return some (.bool (x != y))
    | .matMul, _, _ => return none
    | _, _, _ => return some (← intBinary op m n)
  | _, _ =>
    match floats? a b with
    | some both =>
      match op with
      | .add | .sub | .mul | .div | .floorDiv | .mod | .pow => do
        let (x, y) ← both
        return some (← floatBinary op x y)
      | _ => return none
    | none =>
      match ← complexBinary op a b with
      | some v => return some v
      | none =>
        match op with
        | .add => concatenate a b
        | .mul => multiply a b
        | op => setBinary op a b

/-- A binary operation; `symbol` is how it is written in errors. -/
def binaryOf (symbol : String) (op : BinaryOp) (a b : Value) : M Value := do
  let left := "__" ++ methodStem op ++ "__"
  let right := "__r" ++ methodStem op ++ "__"
  match ← tryUser a left b with
  | some v => return v
  | none =>
    match ← nativeBinary op a b with
    | some v => return v
    | none =>
      match ← tryUser b right a with
      | some v => return v
      | none => refuseBinary symbol a b

/-- A unary operation. -/
def unaryOf (op : UnaryOp) (v : Value) : M Value := do
  let refuse (symbol name : String) : M Value := do
    match ← callUser v name [] with
    | some r => return r
    | none => typeError ("bad operand type for unary " ++ symbol ++ ": '" ++ (← typeName v) ++ "'")
  match op with
  | .not => return .bool (!(← truthOf v))
  | .minus =>
    match v, v.int? with
    | _, some n => return .int (-n)
    | .float x, _ => return .float (-x)
    | .complex x y, _ => return .complex (-x) (-y)
    | _, _ => refuse "-" "__neg__"
  | .plus =>
    match v, v.int? with
    | _, some n => return .int n
    | .float x, _ => return .float x
    | .complex x y, _ => return .complex x y
    | _, _ => refuse "+" "__pos__"
  | .invert =>
    match v.int? with
    | some n => return .int (-n - 1)
    | none => refuse "~" "__invert__"

end Evalbox.M
