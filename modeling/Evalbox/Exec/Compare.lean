import Evalbox.Exec.Show

/-!
# Truth, equality and order

Truth values, equality, order and membership. Containers compare item by item, each comparison a task
of its own; classes of a snippet can define all of these.
-/

namespace Evalbox.M

open Lang

/-- How many items a container has. -/
def sizeOf? (v : Value) : M (Option Nat) := do
  match v with
  | .text s => return some s.length
  | .bytes b => return some b.length
  | .tuple xs => return some xs.length
  | .range a b c =>
    let span := if c > 0 then b - a else a - b
    return some (if span ≤ 0 then 0 else ((span - 1) / c.natAbs + 1).toNat)
  | .ref r =>
    match ← obj r with
    | .list xs => return some xs.size
    | .dict es => return some es.length
    | .names ns => return some ns.length
    | .set _ xs => return some xs.length
    | .view _ d => return some (← obj d).entries.length
    | _ => return Option.none
  | _ => return Option.none

/-- The length of a value. -/
def lengthOf (v : Value) : M Nat := do
  match ← sizeOf? v with
  | some n => return n
  | Option.none =>
    match ← callUser v "__len__" [] with
    | some w =>
      match w.int? with
      | some n => if n < 0 then valueError "__len__() should return >= 0" else return n.toNat
      | Option.none => typeError ("'" ++ (← typeName w) ++ "' object cannot be interpreted as an integer")
    | Option.none => typeError ("object of type '" ++ (← typeName v) ++ "' has no len()")

/-- Whether a value counts as true. -/
def truthOf (v : Value) : M Bool := do
  match v with
  | .none => return false
  | .bool b => return b
  | .int n => return n ≠ 0
  | .float x => return x != 0
  | .complex a b => return a != 0 || b != 0
  | _ =>
    match ← sizeOf? v with
    | some n => return n ≠ 0
    | Option.none =>
      match ← callUser v "__bool__" [] with
      | some (.bool b) => return b
      | some w => typeError ("__bool__ should return bool, returned " ++ (← typeName w))
      | Option.none =>
        match ← userMethod v "__len__" with
        | some _ => return (← lengthOf v) ≠ 0
        | Option.none => return true

/-- Whether a value may be a key. Answers the name of the class that keeps it from being one. -/
def unhashable? : Nat → Value → M (Option String)
  | 0, _ => return Option.none
  | fuel + 1, v => do
    match v with
    | .tuple xs =>
      xs.foldlM (fun (found : Option String) x => match found with
        | some t => return some t
        | Option.none => unhashable? fuel x) Option.none
    | .slice .. => return some "slice"
    | .ref r =>
      match ← obj r with
      | .list _ => return some "list"
      | .dict _ | .names _ => return some "dict"
      | .set false _ => return some "set"
      | .instanceOf c _ =>
        let h ← heap
        match h.classAttr c "__eq__", h.classAttr c "__hash__" with
        | some _, Option.none => return some (h.className c)
        | _, _ => return Option.none
      | _ => return Option.none
    | _ => return Option.none

/-- Make sure that a value may be a key. -/
def needHashable (v : Value) : M Unit := do
  match ← unhashable? 100 v with
  | some t => typeError ("unhashable type: '" ++ t ++ "'")
  | Option.none => return ()

/-- Compare by a task of its own. -/
def equalTask (a b : Value) : M Bool := do
  if a.sameKey b then return true
  else match a, b with
    | .ref _, _ | _, .ref _ | .tuple _, .tuple _ | .range .., .range .. =>
      match ← valueOf (.equals a b) with
      | .bool r => return r
      | v => truthOf v
    | _, _ => return false

def equalLists : List Value → List Value → M Bool
  | [], [] => return true
  | x :: xs, y :: ys => do
    if ← equalTask x y then equalLists xs ys else return false
  | _, _ => return false

/-- Whether each entry has an equal one among the others. -/
def equalEntries (others : List (Value × Value)) : List (Value × Value) → M Bool
  | [] => return true
  | (k, v) :: rest => do
    match others.find? (·.1.sameKey k) with
    | some (_, w) => if ← equalTask v w then equalEntries others rest else return false
    | Option.none => return false

/-- The items of a range, as far as they go. -/
def rangeItems (a b c : Int) : List Int :=
  let n : Int := if c > 0 then (b - a + c - 1) / c else if c < 0 then (a - b - c - 1) / (-c) else 0
  (List.range n.toNat).map fun (i : Nat) => a + c * (i : Int)

/-- A method of a class that may have no answer. -/
def tryUser (v : Value) (name : String) (w : Value) : M (Option Value) := do
  match ← callUser v name [w] with
  | some .notImplemented => return Option.none
  | r => return r

/-- Equality of containers; other objects are equal to nothing but themselves. -/
def equalObjects (a b : Value) : M Bool := do
  match a, b with
  | .tuple xs, .tuple ys => equalLists xs ys
  | .range a b c, .range d e f =>
    let xs := rangeItems a b c
    let ys := rangeItems d e f
    return xs == ys
  | .ref r, .ref s =>
    if r = s then return true
    else match ← obj r, ← obj s with
      | .list xs, .list ys => if xs.size = ys.size then equalLists xs.toList ys.toList else return false
      | .dict es, .dict fs => if es.length = fs.length then equalEntries fs es else return false
      | .set _ xs, .set _ ys =>
        return xs.length = ys.length && xs.all fun x => ys.any (·.sameKey x)
      | .bound f a, .bound g b => return f.sameKey g && a.sameKey b
      | _, _ => return false
  | _, _ => return false

/-- What `==` answers. -/
def equalsOf (a b : Value) : M Value := do
  if a.sameKey b then
    match a with
    | .ref _ => match ← tryUser a "__eq__" b with
      | some v => return v
      | Option.none => return .bool true
    | _ => return .bool true
  else match ← tryUser a "__eq__" b with
    | some v => return v
    | Option.none =>
      match ← tryUser b "__eq__" a with
      | some v => return v
      | Option.none => return .bool (← equalObjects a b)

def orderHolds (op : CompareOp) (o : Ordering) : Bool :=
  match op with
  | .less => o == .lt
  | .lessEq => o != .gt
  | .greater => o == .gt
  | .greaterEq => o != .lt
  | _ => false

def orderMethods (op : CompareOp) : String × String × String :=
  match op with
  | .less => ("__lt__", "__gt__", "<")
  | .lessEq => ("__le__", "__ge__", "<=")
  | .greater => ("__gt__", "__lt__", ">")
  | _ => ("__ge__", "__le__", ">=")

/-- Order of values that have one without further comparisons. -/
def directOrder : Value → Value → Option (Option Ordering)
  | .float x, .float y => some (Number.compareFloat x y)
  | .float x, w => w.int?.map fun n => (Number.compareInt n x).map Ordering.swap
  | v, .float y => v.int?.map fun n => Number.compareInt n y
  | .text a, .text b => some (some (compare a.toList b.toList))
  | .bytes a, .bytes b => some (some (compare (a.map (·.toNat)) (b.map (·.toNat))))
  | v, w =>
    match v.int?, w.int? with
    | some a, some b => some (some (compare a b))
    | _, _ => Option.none

/-- Compare two sequences: by the first items that differ, or by length. -/
def orderLists (op : CompareOp) : List Value → List Value → M Value
  | x :: xs, y :: ys => do
    if ← equalTask x y then orderLists op xs ys
    else valueOf (.compare op x y)
  | [], [] => return .bool (orderHolds op .eq)
  | [], _ :: _ => return .bool (orderHolds op .lt)
  | _ :: _, [] => return .bool (orderHolds op .gt)

/-- What an order comparison answers. -/
def orderOf (op : CompareOp) (a b : Value) : M Value := do
  match directOrder a b with
  | some r => return .bool ((r.map (orderHolds op)).getD false)
  | Option.none =>
    let (name, mirrored, symbol) := orderMethods op
    match ← tryUser a name b with
    | some v => return v
    | Option.none =>
      match ← tryUser b mirrored a with
      | some v => return v
      | Option.none =>
        let refuse : M Value := do
          typeError ("'" ++ symbol ++ "' not supported between instances of '" ++ (← typeName a) ++
            "' and '" ++ (← typeName b) ++ "'")
        match a, b with
        | .tuple xs, .tuple ys => orderLists op xs ys
        | .ref r, .ref s =>
          match ← obj r, ← obj s with
          | .list xs, .list ys => orderLists op xs.toList ys.toList
          | .set _ xs, .set _ ys =>
            let sub (p q : List Value) : Bool := p.all fun x => q.any (·.sameKey x)
            return .bool (match op with
              | .less => sub xs ys && xs.length < ys.length
              | .lessEq => sub xs ys
              | .greater => sub ys xs && ys.length < xs.length
              | _ => sub ys xs)
          | _, _ => refuse
        | _, _ => refuse

/-- Whether an item equals one of a list. -/
def anyEqual (x : Value) : List Value → M Bool
  | [] => return false
  | y :: ys => do
    if ← equalTask y x then return true else anyEqual x ys

/-- Whether a text occurs in another. -/
def occurs (part : List Char) : List Char → Bool
  | [] => part.isEmpty
  | c :: cs => part.isPrefixOf (c :: cs) || occurs part cs

/-- Membership. Iterators are searched item by item. -/
def contains (container item : Value) : M Bool := do
  match container with
  | .text s =>
    match item with
    | .text part => return occurs part.toList s.toList
    | _ => typeError ("'in <string>' requires string as left operand, not " ++ (← typeName item))
  | .bytes bs =>
    match item with
    | .bytes part => return occurs (part.map fun b => Char.ofNat b.toNat) (bs.map fun b => Char.ofNat b.toNat)
    | _ =>
      match item.int? with
      | some n =>
        if 0 ≤ n && n < 256 then return bs.contains n.toNat.toUInt8
        else valueError "byte must be in range(0, 256)"
      | Option.none => typeError ("a bytes-like object is required, not '" ++ (← typeName item) ++ "'")
  | .tuple xs => anyEqual item xs
  | .range a b c =>
    match item.int? with
    | some n => return (if c > 0 then a ≤ n && n < b else b < n && n ≤ a) && (n - a) % c == 0
    | Option.none => anyEqual item ((rangeItems a b c).map .int)
  | _ =>
    match ← callUser container "__contains__" [item] with
    | some v => truthOf v
    | Option.none =>
      let search : M Bool := do
        match ← valueOf (.collect container []) with
        | .tuple xs => anyEqual item xs
        | _ => return false
      match container with
      | .ref r =>
        match ← obj r with
        | .list xs => anyEqual item xs.toList
        | .dict es => do
          needHashable item
          return es.any (·.1.sameKey item)
        | .names ns => match item with
          | .text n => return (ns.lookup n).isSome
          | _ => return false
        | .set _ xs => do
          needHashable item
          return xs.any (·.sameKey item)
        | .view t d => anyEqual item (viewItems t (← obj d).entries)
        | .iterator .. | .generator .. => search
        | _ =>
          match ← userMethod container "__iter__" with
          | some _ => search
          | Option.none => typeError ("argument of type '" ++ (← typeName container) ++ "' is not iterable")
      | _ => typeError ("argument of type '" ++ (← typeName container) ++ "' is not iterable")

/-- Whether two values are one. -/
def identical : Value → Value → Bool
  | .tuple xs, .tuple ys => xs.isEmpty && ys.isEmpty
  | .ref a, .ref b => a == b
  | .bool a, .bool b => a == b
  | .int a, .int b => a == b
  | .float a, .float b => a.toBits == b.toBits
  | .bool _, _ | _, .bool _ => false
  | .int _, .float _ | .float _, .int _ => false
  | a, b => a.sameKey b

/-- What a comparison answers. -/
def compareOf (op : CompareOp) (a b : Value) : M Value := do
  match op with
  | .eq => equalsOf a b
  | .notEq =>
    match ← tryUser a "__ne__" b with
    | some v => return v
    | Option.none => return .bool (!(← truthOf (← equalsOf a b)))
  | .is => return .bool (identical a b)
  | .isNot => return .bool (!identical a b)
  | .isIn => return .bool (← contains b a)
  | .notIn => return .bool (!(← contains b a))
  | op => orderOf op a b

end Evalbox.M
