import Evalbox.Lang.Tree

/-!
# What error reports call an expression
-/

namespace Evalbox.Lang.Expr

/-- The name of a kind of expression in error reports. -/
def describe : Expr → String
  | attr .. => "attribute"
  | subscript .. => "subscript"
  | starred .. => "starred"
  | name .. => "name"
  | list .. => "list"
  | tuple .. => "tuple"
  | function .. => "lambda"
  | call .. => "function call"
  | boolean .. | binary .. | unary .. => "expression"
  | generator .. => "generator expression"
  | yield .. | yieldFrom .. => "yield expression"
  | await .. => "await expression"
  | listOf .. => "list comprehension"
  | setOf .. => "set comprehension"
  | dictOf .. => "dict comprehension"
  | dict .. => "dict literal"
  | set .. => "set display"
  | joined .. | formatted .. => "f-string expression"
  | constant _ .none => "None"
  | constant _ (.bool true) => "True"
  | constant _ (.bool false) => "False"
  | constant _ .ellipsis => "ellipsis"
  | constant .. => "literal"
  | compare .. => "comparison"
  | conditional .. => "conditional expression"
  | named .. => "named expression"
  | slice .. => "slice"

/-- The three places in which targets stand. -/
inductive TargetKind where
  | assigned
  | deleted
  | looped
  deriving DecidableEq

/-- The first part of an expression that cannot be a target. A loop's `in` may have been read as a
comparison, whose left side is then the target. -/
def invalidTarget? (kind : TargetKind) : Expr → Option Expr
  | list _ items => firstInvalid items
  | tuple _ items => firstInvalid items
  | e@(starred _ value) => if kind = .deleted then some e else invalidTarget? kind value
  | e@(compare _ left ops _) =>
    if kind = .looped then
      if ops.head? = some .isIn then invalidTarget? kind left else none
    else some e
  | name .. | subscript .. | attr .. => none
  | e => some e
where
  /-- The first invalid part among several targets. -/
  firstInvalid : List Expr → Option Expr
    | [] => none
    | e :: rest => match invalidTarget? kind e with
      | some bad => some bad
      | none => firstInvalid rest

end Evalbox.Lang.Expr
