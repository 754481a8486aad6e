import Evalbox.Exec.Attributes

/-!
# Items

Reading, setting and dropping the items of a container, by index, by slice or by key. A slice selects
the places that `slicePlaces` lists; negative bounds count from the end.
-/

namespace Evalbox

/-- The places from `start` on in steps of `step` that lie before `stop`. -/
def placesFrom (start stop step : Int) : List Nat :=
  let count : Int := if step > 0 then (stop - start + step - 1) / step else (start - stop - step - 1) / (-step)
  (List.range count.toNat).map fun (i : Nat) => (start + step * (i : Int)).toNat

/-- A bound of a slice over `size` items, kept between `low` and `high`. -/
def sliceBound (size : Nat) (low high : Int) (n : Int) : Int :=
  let n := if n < 0 then n + size else n
  max low (min high n)

/-- The first place, the end and the step of a slice over `size` items. -/
def sliceSpan (size : Nat) (lower upper : Option Int) (step : Int) : Int × Int :=
  let n : Int := size
  if step > 0 then
    ((lower.map (sliceBound size 0 n)).getD 0, (upper.map (sliceBound size 0 n)).getD n)
  else
    ((lower.map (sliceBound size (-1) (n - 1))).getD (n - 1), (upper.map (sliceBound size (-1) (n - 1))).getD (-1))

/-- The places that a slice selects. -/
def slicePlaces (size : Nat) (lower upper : Option Int) (step : Int) : List Nat :=
  let (a, b) := sliceSpan size lower upper step
  placesFrom a b step

namespace M

/-- The integer that a value is, asking a snippet's class if needed. -/
def indexOf? (v : Value) : M (Option Int) := do
  match v.int? with
  | some n => return some n
  | none =>
    match ← callUser v "__index__" [] with
    | some w => return w.int?
    | none => return none

/-- A bound of a slice. -/
def sliceIndex (v : Value) : M (Option Int) := do
  match v with
  | .none => return none
  | v =>
    match ← indexOf? v with
    | some n => return some n
    | none => typeError "slice indices must be integers or None or have an __index__ method"

/-- The bounds and the step of a slice. -/
def sliceParts (a b c : Value) : M (Option Int × Option Int × Int) := do
  let step := (← sliceIndex c).getD 1
  if step = 0 then valueError "slice step cannot be zero"
  else return (← sliceIndex a, ← sliceIndex b, step)

/-- Select items by a slice. -/
def sliced {α : Type} (xs : List α) (a b c : Value) : M (List α) := do
  let (lower, upper, step) ← sliceParts a b c
  let items := xs.toArray
  return (slicePlaces items.size lower upper step).filterMap (items[·]?)

/-- The place that an index means. -/
def placeOf (size : Nat) (n : Int) : Option Nat :=
  let n := if n < 0 then n + size else n
  if 0 ≤ n && n < size then some n.toNat else none

def indexError {α : Type} (text : String) : M α := raise "IndexError" text

/-- An item of a sequence by index or slice. `what` names the sequence in the error for a wrong index,
`range` in the one for an index out of range. -/
def sequenceItem {α : Type} (xs : List α) (index : Value) (what range : String) (quoted : Bool)
    (one : α → Value) (many : List α → M Value) : M Value := do
  match index with
  | .slice a b c => many (← sliced xs a b c)
  | _ =>
    match ← indexOf? index with
    | some n =>
      match (placeOf xs.length n).bind (xs[·]?) with
      | some x => return one x
      | none => indexError (range ++ " out of range")
    | none =>
      let t ← typeName index
      typeError (what ++ ", not " ++ (if quoted then "'" ++ t ++ "'" else t))

def notSubscriptable {α : Type} (v : Value) : M α := do
  let h ← heap
  match v with
  | .ref r => match h.get r with
    | .cls i => typeError ("type '" ++ i.name ++ "' is not subscriptable")
    | _ => typeError ("'" ++ h.typeName v ++ "' object is not subscriptable")
  | _ => typeError ("'" ++ h.typeName v ++ "' object is not subscriptable")

/-- Classes of the language that may be given parameters. -/
def genericClasses : List String := ["list", "dict", "tuple", "set", "frozenset", "type"]

def sequenceText (name : String) : String := name ++ " indices must be integers or slices"

/-- Read an item. -/
def getItem (v index : Value) : M Value := do
  match v with
  | .text s =>
    sequenceItem s.toList index "string indices must be integers" "string index" true
      (fun c => .text (String.singleton c)) fun cs => return .text (String.ofList cs)
  | .bytes bs =>
    sequenceItem bs index (sequenceText "byte") "index" false (fun b => .int b.toNat) fun bs => return .bytes bs
  | .tuple xs =>
    sequenceItem xs index (sequenceText "tuple") "tuple index" false id fun xs => return .tuple xs
  | .range a b c =>
    sequenceItem (rangeItems a b c) index (sequenceText "range") "range object index" false .int fun _ => do
      match index with
      | .slice p q r => do
        let (lower, upper, step) ← sliceParts p q r
        let (i, j) := sliceSpan (rangeItems a b c).length lower upper step
        return .range (a + i * c) (a + j * c) (c * step)
      | _ => return .none
  | .ref r =>
    match ← obj r with
    | .list xs =>
      match (index.int?.bind (placeOf xs.size)).bind (xs[·]?) with
      | some w => return w
      | none =>
        sequenceItem xs.toList index (sequenceText "list") "list index" false id fun xs => make (.list xs.toArray)
    | .dict es => do
      needHashable index
      match es.find? (·.1.sameKey index) with
      | some (_, w) => return w
      | none => raiseWith "KeyError" [index] []
    | .names ns =>
      match index with
      | .text n => match ns.lookup n with
        | some w => return w
        | none => raiseWith "KeyError" [index] []
      | _ => raiseWith "KeyError" [index] []
    | .cls i => do
      let args : List Value := match index with
        | .tuple xs => xs
        | x => [x]
      match ← userMethodOfClass r "__class_getitem__" with
      | some f => valueOf (.apply (← bindToClass r f) [index] [])
      | none => if genericClasses.contains i.name && r < builtinClasses.length then make (.alias v args) else notSubscriptable v
    | .alias .. => return v
    | _ =>
      match ← callUser v "__getitem__" [index] with
      | some w => return w
      | none => notSubscriptable v
  | _ => notSubscriptable v
where
  userMethodOfClass (r : Ref) (name : String) : M (Option Value) := do
    return (← heap).classAttr r name

/-- Set an entry: in place if the key is there, at the end otherwise. -/
def putEntry (es : List (Value × Value)) (k v : Value) : List (Value × Value) :=
  if es.any (·.1.sameKey k) then es.map fun e => if e.1.sameKey k then (e.1, v) else e else es ++ [(k, v)]

/-- Put items in the places of a slice. -/
def assignSlice (xs : List Value) (a b c : Value) (items : List Value) : M (List Value) := do
  let (lower, upper, step) ← sliceParts a b c
  if step = 1 then
    let (i, j) := sliceSpan xs.length lower upper step
    return xs.take i.toNat ++ items ++ xs.drop (max i j).toNat
  else
    let places := slicePlaces xs.length lower upper step
    if places.length ≠ items.length then
      valueError ("attempt to assign sequence of size " ++ toString items.length ++
        " to extended slice of size " ++ toString places.length)
    else
      return ((places.zip items).foldl (fun (ys : Array Value) (p, v) => ys.setIfInBounds p v) xs.toArray).toList

/-- Set an item. The items of a slice have been collected. -/
def setItem (v index w : Value) (items : List Value) : M Unit := do
  let refuse : M Unit := do typeError ("'" ++ (← typeName v) ++ "' object does not support item assignment")
  match v with
  | .ref r =>
    match ← obj r with
    | .list xs =>
      match index with
      | .slice a b c => do
        let ys ← assignSlice xs.toList a b c items
        put r (.list ys.toArray)
      | _ =>
        match ← indexOf? index with
        | some n =>
          match placeOf xs.size n with
          | some i => put r (.list (xs.setIfInBounds i w))
          | none => indexError "list assignment index out of range"
        | none => typeError (sequenceText "list" ++ ", not " ++ (← typeName index))
    | .dict es => do
      needHashable index
      put r (.dict (putEntry es index w))
    | .names _ =>
      match index with
      | .text n => setName r n w
      | _ => pure ()
    | _ =>
      match ← callUser v "__setitem__" [index, w] with
      | some _ => pure ()
      | none => refuse
  | _ => refuse

/-- Drop an item. -/
def dropItem (v index : Value) : M Unit := do
  let refuse : M Unit := do typeError ("'" ++ (← typeName v) ++ "' object doesn't support item deletion")
  match v with
  | .ref r =>
    match ← obj r with
    | .list xs =>
      match index with
      | .slice a b c => do
        let (lower, upper, step) ← sliceParts a b c
        let gone := slicePlaces xs.size lower upper step
        put r (.list ((xs.toList.zipIdx.filter fun (_, i) => !gone.contains i).map (·.1)).toArray)
      | _ =>
        match ← indexOf? index with
        | some n =>
          match placeOf xs.size n with
          | some i => put r (.list (xs.toList.eraseIdx i).toArray)
          | none => indexError "list assignment index out of range"
        | none => typeError (sequenceText "list" ++ ", not " ++ (← typeName index))
    | .dict es => do
      needHashable index
      if es.any (·.1.sameKey index) then put r (.dict (es.filter fun e => !e.1.sameKey index))
      else raiseWith "KeyError" [index] []
    | .names ns =>
      match index with
      | .text n => if (ns.lookup n).isSome then eraseName r n else raiseWith "KeyError" [index] []
      | _ => raiseWith "KeyError" [index] []
    | _ =>
      match ← callUser v "__delitem__" [index] with
      | some _ => pure ()
      | none => refuse
  | _ => refuse

end M

end Evalbox
