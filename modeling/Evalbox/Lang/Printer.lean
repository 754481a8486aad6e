import Evalbox.Lang.Tree
import Evalbox.Number.Text
import Evalbox.Text.Quoted

/-!
# Expressions as text

The text of an expression that stands as a hint, in a normal form: one blank around operators and
behind commas, single quotes where they will do.
-/

namespace Evalbox.Lang

/-- The text of a literal. -/
def Constant.written : Constant → String
  | none => "None"
  | bool b => if b then "True" else "False"
  | ellipsis => "..."
  | int n => toString n
  | float x => Number.floatText x
  | imaginary x => Number.floatText x ++ "j"
  | text s u => (if u then "u" else "") ++ Text.quote s
  | bytes b => Text.quoteBytes b

/-- The text of an operator and how tightly it binds. -/
def BinaryOp.text : BinaryOp → String × Nat
  | add => ("+", 5) | sub => ("-", 5) | mul => ("*", 6) | matMul => ("@", 6) | div => ("/", 6)
  | mod => ("%", 6) | pow => ("**", 8) | leftShift => ("<<", 4) | rightShift => (">>", 4)
  | bitOr => ("|", 1) | bitXor => ("^", 2) | bitAnd => ("&", 3) | floorDiv => ("//", 6)

def CompareOp.text : CompareOp → String
  | eq => "==" | notEq => "!=" | less => "<" | lessEq => "<=" | greater => ">" | greaterEq => ">="
  | is => "is" | isNot => "is not" | isIn => "in" | notIn => "not in"

namespace Expr

/-- The text of an expression where an operator that binds as tightly as `level` could stand. -/
def textAt : Nat → Nat → Expr → String
  | 0, _, _ => "..."
  | depth + 1, level, e =>
    let sub (l : Nat) (x : Expr) : String := textAt depth l x
    let list (xs : List Expr) : String := ", ".intercalate (xs.map (sub 0))
    let closed (l : Nat) (s : String) : String := if l < level then "(" ++ s ++ ")" else s
    match e with
    | constant _ c => c.written
    | name _ id => id
    | attr _ v n => sub 10 v ++ "." ++ n
    | subscript _ v (tuple _ xs) => sub 10 v ++ "[" ++ list xs ++ (if xs.length = 1 then "," else "") ++ "]"
    | subscript _ v i => sub 10 v ++ "[" ++ sub 0 i ++ "]"
    | tuple _ [x] => "(" ++ sub 0 x ++ ",)"
    | tuple _ xs => "(" ++ list xs ++ ")"
    | Expr.list _ xs => "[" ++ list xs ++ "]"
    | set _ xs => "\x7b" ++ list xs ++ "\x7d"
    | binary _ op a b =>
      let (s, l) := op.text
      closed l (sub l a ++ " " ++ s ++ " " ++ sub (l + 1) b)
    | unary _ op a =>
      match op with
      | .not => closed 0 ("not " ++ sub 0 a)
      | .minus => closed 7 ("-" ++ sub 7 a)
      | .plus => closed 7 ("+" ++ sub 7 a)
      | .invert => closed 7 ("~" ++ sub 7 a)
    | compare _ a ops bs =>
      closed 0 (sub 1 a ++ String.join ((ops.zip bs).map fun (o, b) => " " ++ o.text ++ " " ++ sub 1 b))
    | boolean _ c xs => closed 0 ((if c then " and " else " or ").intercalate (xs.map (sub 1)))
    | conditional _ t b o => closed 0 (sub 1 b ++ " if " ++ sub 1 t ++ " else " ++ sub 0 o)
    | call _ f as ks =>
      sub 10 f ++ "(" ++ ", ".intercalate (as.map (sub 0) ++ ks.map fun k => match k with
        | .mk _ (some n) v => n ++ "=" ++ sub 0 v
        | .mk _ none v => "**" ++ sub 0 v) ++ ")"
    | starred _ v => "*" ++ sub 1 v
    | slice _ a b c =>
      let part (x : Option Expr) : String := (x.map (sub 0)).getD ""
      part a ++ ":" ++ part b ++ (match c with
        | some x => ":" ++ sub 0 x
        | none => "")
    | _ => "..."

/-- The text of an expression. -/
def text (e : Expr) : String := textAt 200 0 e

end Expr

end Evalbox.Lang
