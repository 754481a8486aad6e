import Evalbox.Lang.Tree

/-!
# Constant expressions

Which expressions are constants once arithmetic on literals is done ahead of time. Only the kinds of
the results matter here: warnings about suspicious code name them. Operations that would fail, or
whose results would be large, are left to run time.
-/

namespace Evalbox.Lang

/-- The value of a constant expression, as far as warnings need it. -/
inductive Folded where
  | none
  | bool (value : Bool)
  | ellipsis
  | int (value : Int)
  | float (value : Float)
  | complex
  | text (value : String)
  | bytes (value : List UInt8)
  | tuple (items : List Folded)
  deriving Inhabited

namespace Folded

def ofConstant : Constant → Folded
  | .none => none
  | .bool b => bool b
  | .ellipsis => ellipsis
  | .int n => int n
  | .float x => float x
  | .imaginary _ => complex
  | .text s _ => text s
  | .bytes b => bytes b

/-- The name of the type of a value. -/
def typeName : Folded → String
  | none => "NoneType"
  | bool _ => "bool"
  | ellipsis => "ellipsis"
  | int _ => "int"
  | float _ => "float"
  | complex => "complex"
  | text _ => "str"
  | bytes _ => "bytes"
  | tuple _ => "tuple"

/-- Truth of a value. -/
def truth : Folded → Bool
  | none => false
  | bool b => b
  | int n => n ≠ 0
  | float x => !(x == 0)
  | text s => !s.isEmpty
  | bytes b => !b.isEmpty
  | tuple ts => !ts.isEmpty
  | _ => true

/-- A value as an integer, if it is one. -/
def int? : Folded → Option Int
  | int n => some n
  | bool b => some (if b then 1 else 0)
  | _ => Option.none

def isNumber : Folded → Bool
  | int _ | bool _ | float _ | complex => true
  | _ => false

def unary : UnaryOp → Folded → Option Folded
  | .not, v => some (bool (!v.truth))
  | .invert, v => v.int?.map fun n => int (-n - 1)
  | op, float x => some (float (if op = .minus then -x else x))
  | _, complex => some complex
  | op, v => v.int?.map fun n => int (if op = .minus then -n else n)

/-- The most bits of an integer that is computed ahead of time. -/
def bitLimit : Nat := 128

def bits (n : Int) : Nat := if n = 0 then 0 else n.natAbs.log2 + 1

def binary (op : BinaryOp) (a b : Folded) : Option Folded :=
  match a.int?, b.int? with
  | some m, some n =>
    match op with
    | .add => some (int (m + n))
    | .sub => some (int (m - n))
    | .mul => if bits m + bits n > bitLimit then Option.none else some (int (m * n))
    | .div => if n = 0 then Option.none else some (float 1)
    | .floorDiv => if n = 0 then Option.none else some (int (Int.fdiv m n))
    | .mod => if n = 0 then Option.none else some (int (Int.fmod m n))
    | .pow =>
      if n < 0 then (if m = 0 then Option.none else some (float 1))
      else if bits m * n.natAbs > bitLimit then Option.none else some (int (Int.pow m n.natAbs))
    | .leftShift => if n < 0 ∨ n.natAbs + bits m > bitLimit then Option.none else some (int (m * Int.pow 2 n.natAbs))
    | .rightShift => if n < 0 then Option.none else some (int (m >>> n.natAbs))
    | .bitAnd | .bitOr | .bitXor => some (int 1)
    | .matMul => Option.none
  | _, _ =>
    if a.isNumber && b.isNumber then
      match op with
      | .add | .sub | .mul => some (match a, b with
        | complex, _ | _, complex => complex
        | _, _ => float 1)
      | .div | .floorDiv | .mod => if b.truth then some (float 1) else Option.none
      | .pow => if a.truth then some (float 1) else Option.none
      | _ => Option.none
    else match op, a, b with
      | .add, text s, text t => some (text (s ++ t))
      | .add, bytes s, bytes t => some (bytes (s ++ t))
      | .add, tuple s, tuple t => some (tuple (s ++ t))
      | .mul, text s, int n => if s.length * n.natAbs > 4096 then Option.none else some (text (if n > 0 then s else ""))
      | .mul, int n, text s => if s.length * n.natAbs > 4096 then Option.none else some (text (if n > 0 then s else ""))
      | .mul, tuple s, int n => if s.length * n.natAbs > 256 then Option.none else some (tuple (if n > 0 then s else []))
      | _, _, _ => Option.none

/-- An item of a sequence. -/
def item (v : Folded) (i : Int) : Option Folded :=
  let at_ (n : Nat) : Option Nat :=
    let k := if i < 0 then i + n else i
    if 0 ≤ k ∧ k < n then some k.toNat else Option.none
  match v with
  | text s => (at_ s.length).map fun _ => text "x"
  | bytes b => (at_ b.length).map fun _ => int 0
  | tuple ts => (at_ ts.length).bind fun k => ts[k]?
  | _ => Option.none

end Folded

namespace Expr

/-- The value of a constant expression whose tree is at most `depth` deep. -/
def folded? : Nat → Expr → Option Folded
  | 0, _ => none
  | depth + 1, e =>
    match e with
    | .constant _ c => some (Folded.ofConstant c)
    | .unary _ op a => (folded? depth a).bind (Folded.unary op)
    | .binary _ op a b => do Folded.binary op (← folded? depth a) (← folded? depth b)
    | .tuple _ es => (es.mapM (folded? depth)).map Folded.tuple
    | .subscript _ v i => do (← folded? depth v).item (← (← folded? depth i).int?)
    | .name _ "__debug__" => some (.bool true)
    | _ => none

/-- The type of an expression, where it can be told from its form. -/
def formType? (depth : Nat) (e : Expr) : Option String :=
  match folded? depth e with
  | some v => some v.typeName
  | none =>
    match e with
    | .tuple .. => some "tuple"
    | .list .. | .listOf .. => some "list"
    | .dict .. | .dictOf .. => some "dict"
    | .set .. | .setOf .. => some "set"
    | .generator .. => some "generator"
    | .function .. => some "function"
    | .joined .. | .formatted .. => some "str"
    | _ => none

end Expr

end Evalbox.Lang
