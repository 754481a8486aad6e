import Evalbox.Exec.Items
import Evalbox.Exec.Iterate
import Evalbox.Exec.Signature

/-!
# Methods of containers

The methods of lists, tuples, dicts and sets. Sorting is stable and asks only whether one item is less
than another, so that the classes of a snippet decide about their instances.
-/

namespace Evalbox.M

/-- Put an item behind those that it is not less than. `reversed` lists the sorted items from the last
on. -/
def insertSorted (item : Value × Value) : List (Value × Value) → M (List (Value × Value))
  | [] => return [item]
  | last :: before => do
    if ← truthOf (← valueOf (.compare .less item.1 last.1)) then
      return last :: (← insertSorted item before)
    else return item :: last :: before

/-- Whether two keys can be compared without asking a class. -/
def comparable (a b : Value) : Bool := (directOrder a b).isSome

/-- Sort pairs of a key and a value by their keys. -/
def sortPairs (items : List (Value × Value)) : M (List (Value × Value)) := do
  let plain : Bool := match items with
    | [] => true
    | (k, _) :: _ => items.all fun (j, _) => comparable k j && !(j matches .float _)
  if plain then
    return items.mergeSort fun a b =>
      match directOrder b.1 a.1 with
      | some (some .lt) => false
      | _ => true
  else do
    let rec go : List (Value × Value) → List (Value × Value) → M (List (Value × Value))
      | done, [] => return done.reverse
      | done, x :: rest => do go (← insertSorted x done) rest
    go [] items

/-- Call a key function on every item. -/
def keyed (key : Value) : List Value → M (List (Value × Value))
  | [] => return []
  | x :: rest => do
    let k ← match key with
      | .none => pure x
      | f => valueOf (.apply f [x] [])
    return (k, x) :: (← keyed key rest)

/-- Items in order. -/
def sortedItems (items : List Value) (key : Value) (reverse : Bool) : M (List Value) := do
  let pairs ← keyed key items
  if reverse then return (← sortPairs pairs.reverse).reverse.map (·.2)
  else return (← sortPairs pairs).map (·.2)

/-- The place of an item in a list. -/
def placeIn (x : Value) : Nat → List Value → M (Option Nat)
  | _, [] => return none
  | i, y :: ys => do
    if ← equalTask y x then return some i else placeIn x (i + 1) ys

/-- How many items equal one. -/
def countIn (x : Value) : List Value → M Nat
  | [] => return 0
  | y :: ys => do
    let here ← equalTask y x
    return (if here then 1 else 0) + (← countIn x ys)

/-- A bound of a search. -/
def searchBound (size : Nat) (v : Value) : M Nat := do
  match ← indexOf? v with
  | some n => return (sliceBound size 0 size n).toNat
  | none => typeError "slice indices must be integers or have an __index__ method"

/-- A method of a tuple, or one that lists share with them. -/
def sequenceMethod (type : String) (xs : List Value) (name : String) (args : List Value) : M Value := do
  let x := args.headD .none
  match name with
  | "index" => do
    let bound (i usual : Nat) : M Nat := match args[i]? with
      | some v => searchBound xs.length v
      | none => return usual
    let start ← bound 1 0
    let stop ← bound 2 xs.length
    match ← placeIn x start ((xs.take stop).drop start) with
    | some i => return .int i
    | none =>
      if type = "tuple" then valueError "tuple.index(x): x not in tuple"
      else valueError ((← shownTask x) ++ " is not in " ++ type)
  | _ => return .int (← countIn x xs)

/-- A method of a list. -/
def listMethod (r : Ref) (xs : Array Value) (name : String) (args : List Value) (kwargs : Names) : M Value := do
  let store (ys : List Value) : M Value := do
    put r (.list ys.toArray)
    return .none
  let arg := args.headD .none
  match name with
  | "append" => do
    append r arg
    return .none
  | "extend" => do
    let items ← collectAll arg
    match ← obj r with
    | .list xs => put r (.list (xs ++ items.toArray))
    | _ => pure ()
    return .none
  | "insert" => do
    let i := (sliceBound xs.size 0 xs.size (← needInt arg)).toNat
    store (xs.toList.take i ++ [(args[1]?).getD .none] ++ xs.toList.drop i)
  | "remove" => do
    match ← placeIn arg 0 xs.toList with
    | some i => store (xs.toList.eraseIdx i)
    | none => valueError "list.remove(x): x not in list"
  | "pop" => do
    let i ← match args.head? with
      | some v => needInt v
      | none => pure (-1)
    if xs.isEmpty then indexError "pop from empty list"
    else match placeOf xs.size i with
      | some p => do
        let _ ← store (xs.toList.eraseIdx p)
        return (xs[p]?).getD .none
      | none => indexError "pop index out of range"
  | "sort" => do
    if !args.isEmpty then typeError "sort() takes no positional arguments"
    else match kwargs.find? fun (k, _) => k ≠ "key" && k ≠ "reverse" with
    | some (k, _) => typeError ("'" ++ k ++ "' is an invalid keyword argument for sort()")
    | none =>
      let reverse ← truthOf ((kwargs.lookup "reverse").getD .none)
      store (← sortedItems xs.toList ((kwargs.lookup "key").getD .none) reverse)
  | "reverse" => store xs.toList.reverse
  | "copy" => make (.list xs)
  | "clear" => store []
  | _ => sequenceMethod "list" xs.toList name args

/-- Take the entries of a mapping or of a list of pairs. -/
def entriesFrom (v : Value) : M (List (Value × Value)) := do
  let pairs (items : List Value) : M (List (Value × Value)) := do
    let rec go : Nat → List Value → M (List (Value × Value))
      | _, [] => return []
      | i, x :: rest => do
        match ← attempt (collectAll x) with
        | .ok [k, w] => do
          needHashable k
          return (k, w) :: (← go (i + 1) rest)
        | .ok ys =>
          valueError ("dictionary update sequence element #" ++ toString i ++ " has length " ++
            toString ys.length ++ "; 2 is required")
        | .error _ => typeError ("cannot convert dictionary update sequence element #" ++ toString i ++ " to a sequence")
    go 0 items
  match v with
  | .ref r =>
    match ← obj r with
    | .dict es => return es
    | .names ns => return (Obj.names ns).entries
    | _ =>
      match ← userMethod v "keys" with
      | some _ => do
        let keys ← collectAll (← valueOf (.apply (← valueOf (.getAttr v "keys")) [] []))
        keys.mapM fun k => return (k, ← valueOf (.apply (.native "getitem") [v, k] []))
      | none => pairs (← collectAll v)
  | _ => pairs (← collectAll v)

/-- Put all entries into others. -/
def merged (es more : List (Value × Value)) : List (Value × Value) :=
  more.foldl (fun es (k, v) => putEntry es k v) es

/-- The entries that keyword arguments give. -/
def keywordEntries (kwargs : Names) : List (Value × Value) := kwargs.map fun (k, v) => (.text k, v)

/-- A method of a dict. -/
def dictMethod (r : Ref) (es : List (Value × Value)) (name : String) (args : List Value) (kwargs : Names) :
    M Value := do
  let arg := args.headD .none
  let second := (args[1]?).getD .none
  let find (k : Value) : Option Value := (es.find? (·.1.sameKey k)).map (·.2)
  let store (new : List (Value × Value)) : M Value := do
    match ← obj r with
    | .names _ => put r (.names (new.filterMap fun (k, v) => match k with
      | .text n => some (n, v)
      | _ => none))
    | _ => put r (.dict new)
    return .none
  match name with
  | "keys" | "values" | "items" => make (.view ("dict_" ++ name) r)
  | "get" => do
    needHashable arg
    return (find arg).getD second
  | "pop" => do
    needHashable arg
    match find arg with
    | some v => do
      let _ ← store (es.filter fun e => !e.1.sameKey arg)
      return v
    | none => if args.length = 2 then return second else raiseWith "KeyError" [arg] []
  | "popitem" =>
    match es.getLast? with
    | some (k, v) => do
      let _ ← store es.dropLast
      return .tuple [k, v]
    | none => raise "KeyError" "popitem(): dictionary is empty"
  | "update" => do
    let more ← match args with
      | [] => pure []
      | [v] => entriesFrom v
      | _ => typeError ("update expected at most 1 argument, got " ++ toString args.length)
    store (merged (merged es more) (keywordEntries kwargs))
  | "setdefault" => do
    needHashable arg
    match find arg with
    | some v => return v
    | none => do
      let _ ← store (putEntry es arg second)
      return second
  | "copy" => make (.dict es)
  | "clear" => store []
  | "fromkeys" => do
    let keys ← collectAll arg
    keys.forM needHashable
    make (.dict (merged [] (keys.map fun k => (k, second))))
  | _ => return .none

/-- Put an item into a set. -/
def putItem (xs : List Value) (x : Value) : List Value := if xs.any (·.sameKey x) then xs else xs ++ [x]

/-- The distinct items among some, which must all be hashable. -/
def distinct (items : List Value) : M (List Value) := do
  let _ ← items.mapM needHashable
  return items.foldl putItem []

/-- A method of a set. -/
def setMethod (r : Ref) (frozen : Bool) (xs : List Value) (name : String) (args : List Value) : M Value := do
  let arg := args.headD .none
  let has (ys : List Value) (x : Value) : Bool := ys.any (·.sameKey x)
  let store (ys : List Value) : M Value := do
    put r (.set frozen ys)
    return .none
  let others : M (List Value) := do
    let xss ← args.mapM collectAll
    distinct xss.flatten
  let shared : M (List Value) := do
    let yss ← args.mapM fun v => do distinct (← collectAll v)
    return xs.filter fun x => yss.all (has · x)
  let left : M (List Value) := do
    let ys ← others
    return xs.filter fun x => !has ys x
  let either : M (List Value) := do
    let ys ← others
    return xs.filter (fun x => !has ys x) ++ ys.filter (fun y => !has xs y)
  match name with
  | "add" => do
    needHashable arg
    store (putItem xs arg)
  | "remove" => do
    needHashable arg
    if has xs arg then store (xs.filter fun x => !x.sameKey arg) else raiseWith "KeyError" [arg] []
  | "discard" => do
    needHashable arg
    store (xs.filter fun x => !x.sameKey arg)
  | "pop" =>
    match Value.listed xs with
    | x :: _ => do
      let _ ← store (xs.filter fun y => !y.sameKey x)
      return x
    | [] => raise "KeyError" "pop from an empty set"
  | "clear" => store []
  | "copy" => make (.set frozen xs)
  | "update" => do store ((← others).foldl putItem xs)
  | "intersection_update" => do store (← shared)
  | "difference_update" => do store (← left)
  | "symmetric_difference_update" => do store (← either)
  | "union" => do make (.set frozen ((← others).foldl putItem xs))
  | "intersection" => do make (.set frozen (← shared))
  | "difference" => do make (.set frozen (← left))
  | "symmetric_difference" => do make (.set frozen (← either))
  | "issubset" => do
    let ys ← others
    return .bool (xs.all (has ys))
  | "issuperset" => do return .bool ((← others).all (has xs))
  | "isdisjoint" => do return .bool (!(← others).any (has xs))
  | _ => return .none

end Evalbox.M
