/-!
# Dotted names

The parts of a name that dots separate: `root` in front of the first dot, `last` behind the last one, and
`parent` in front of the last one, which is empty for a name without dots.
-/

namespace Evalbox.Dotted

/-- The part of a name in front of its first dot. -/
def root (name : String) : String := String.ofList (name.toList.takeWhile (· ≠ '.'))

/-- The part of a name behind its last dot. -/
def last (name : String) : String := String.ofList (name.toList.reverse.takeWhile (· ≠ '.')).reverse

/-- The part of a name in front of its last dot; empty if there is no dot. -/
def parent (name : String) : String := String.ofList ((name.toList.reverse.dropWhile (· ≠ '.')).drop 1).reverse

/-- Go up from a name, past one dot for each level, if it has so many. -/
def ascend (name : String) : Nat → Option String
  | 0 => some name
  | levels + 1 => (ascend name levels).bind fun n => if n.toList.contains '.' then some (parent n) else none

end Evalbox.Dotted
