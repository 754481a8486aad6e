import Evalbox.Exec.Format
import Evalbox.Text.Utf8

/-!
# Iteration

How values are gone through: by iterators of the language, by generators, and by the methods of a
snippet's classes. `collectAll` takes every item of a value at once.
-/

namespace Evalbox.M

/-- The iterator over known items. -/
def itemsIterator (type : String) (xs : List Value) : M Value := make (.iterator type (.items xs))

/-- The iterator over the members of a set or a dict. -/
def membersIterator (type : String) (home : Ref) : M Value := do
  let all := (← obj home).members
  make (.iterator type (.members home all all))

/-- What an iterator of this type gives for a key of a dict or an item of a set. -/
def memberShown (type : String) (home : Obj) (key : Value) : Value :=
  let value : Value := ((home.entries.find? (·.1.sameKey key)).map (·.2)).getD .none
  match type with
  | "dict_valueiterator" => value
  | "dict_itemiterator" => .tuple [key, value]
  | _ => key

def notIterable {α : Type} (v : Value) : M α := do
  typeError ("'" ++ (← typeName v) ++ "' object is not iterable")

/-- Whether a value can be asked for items. -/
def isIterator (v : Value) : M Bool := do
  match v with
  | .ref r =>
    match ← obj r with
    | .iterator .. | .generator .. | .file _ => return true
    | _ => return (← userMethod v "__next__").isSome
  | _ => return false

/-- The iterator of a value. -/
def iterOf (v : Value) : M Value := do
  match v with
  | .tuple xs => itemsIterator "tuple_iterator" xs
  | .text s =>
    itemsIterator (if s.toList.all (·.toNat < 128) then "str_ascii_iterator" else "str_iterator")
      (s.toList.map fun c => .text (String.singleton c))
  | .bytes bs => itemsIterator "bytes_iterator" (bs.map fun b => .int b.toNat)
  | .range a b c => make (.iterator "range_iterator" (.count a b c))
  | .ref r =>
    match ← obj r with
    | .list _ => make (.iterator "list_iterator" (.listAt r 0))
    | .dict _ | .names _ => membersIterator "dict_keyiterator" r
    | .set .. => membersIterator "set_iterator" r
    | .view t d =>
      membersIterator (match t with
        | "dict_values" => "dict_valueiterator"
        | "dict_items" => "dict_itemiterator"
        | _ => "dict_keyiterator") d
    | .iterator .. | .generator .. | .file _ => return v
    | _ =>
      match ← callUser v "__iter__" [] with
      | some it =>
        if ← isIterator it then return it
        else typeError ("iter() returned non-iterator of type '" ++ (← typeName it) ++ "'")
      | none =>
        match ← userMethod v "__getitem__" with
        | some _ => make (.iterator "iterator" (.sequence v 0))
        | none => notIterable v
  | _ => notIterable v

/-- Whether an exception that is on its way belongs to a class. -/
def isKind (r : Raised) (cls : String) : M Bool := do
  let h ← heap
  return h.isSubclass (h.exceptionInfo r.exc).cls (classRef cls)

/-- Let a generator run up to its next item. A stop that it raises itself is an error. -/
def wake (r : Ref) (w : Wake) : M Given := do
  match ← obj r with
  | .generator id state name qualname type =>
    match state with
    | .running => valueError "generator already executing"
    | .finished =>
      match w with
      | .throw e => fail e
      | .send _ => return .ended .none
    | .fresh | .suspended => do
      match state, w with
      | .fresh, .send .none | .suspended, _ | .fresh, .throw _ => pure ()
      | _, _ => typeError ("can't send non-None value to a just-started " ++ type)
      put r (.generator id .running name qualname type)
      let res ← attempt fun h => .resume h id w fun h res => .done h res
      match res with
      | .ok (.item v) => do
        put r (.generator id .suspended name qualname type)
        return .item v
      | .ok (.ended v) => do
        put r (.generator id .finished name qualname type)
        return .ended v
      | .error e => do
        put r (.generator id .finished name qualname type)
        if ← isKind e "StopIteration" then
          let n ← newException (classRef "RuntimeError") [.text (type ++ " raised StopIteration")] []
          change fun h => h.modifyException n fun i =>
            { i with cause := some e.exc, context := some e.exc, suppressed := true }
          fail ⟨n, none, false⟩
        else fail e
  | _ => return .ended .none

/-- The next item of an iterator, by a task of its own. -/
def nextTask (iter : Value) : M (Option Value) := do
  match ← run (.next iter) with
  | .value v => return some v
  | _ => return none

/-- The next items of several iterators; none if one of them has no more. -/
def nextAll : List Value → M (Option (List Value))
  | [] => return some []
  | it :: rest => do
    match ← nextTask it with
    | none => return none
    | some v =>
      match ← nextAll rest with
      | none => return none
      | some vs => return some (v :: vs)

/-- The value that a stop carries. -/
def stopValue (r : Raised) : M Value := do
  match ((← heap).exceptionInfo r.exc).args with
  | v :: _ => return v
  | [] => return .none

/-- The next line of text of a file, from a place on. -/
def lineAt (bytes : List UInt8) (position : Nat) : List UInt8 :=
  let rest := bytes.drop position
  let body := rest.takeWhile (· ≠ 10)
  if body.length < rest.length then body ++ [10] else body

/-- Raise that bytes are no text. -/
def undecodable {α : Type} (bs : List UInt8) (f : Text.DecodeFault) : M α :=
  raiseWith "UnicodeDecodeError" [.text "utf-8", .bytes bs, .int f.start, .int f.stop, .text f.reason] []

/-- Bytes of a file as a value. -/
def fileValue (binary : Bool) (bs : List UInt8) : M Value := do
  if binary then return .bytes bs
  else match Text.decode bs with
    | .ok cs => return .text (String.ofList cs)
    | .error f => undecodable bs f

/-- The next line of an open file, if there is one. -/
def readLine (r : Ref) (f : OpenFile) : M (Option Value) := do
  if f.closed then valueError "I/O operation on closed file."
  else match ← ask (.readFile f.path) with
    | .bytes (some bs) =>
      let line := lineAt bs f.position
      if line.isEmpty then return none
      else do
        put r (.file { f with position := f.position + line.length })
        return some (← fileValue f.binary line)
    | _ => return none

/-- The next item of an iterator; `ended` carries what a generator returned. -/
def nextGiven (iter : Value) : M Given := do
  let ended : M Given := pure (.ended .none)
  match iter with
  | .ref r =>
    match ← obj r with
    | .generator .. => wake r (.send .none)
    | .file f =>
      match ← readLine r f with
      | some v => return .item v
      | none => ended
    | .iterator t s =>
      match s with
      | .items [] => ended
      | .items (v :: rest) => do
        put r (.iterator t (.items rest))
        return .item v
      | .members home all rest => do
        let now ← obj home
        let isSet : Bool := now matches .set ..
        if now.memberCount ≠ all.length then
          raise "RuntimeError" (if isSet then "Set changed size during iteration"
            else "dictionary changed size during iteration")
        else match rest.dropWhile fun k => !now.hasMember k with
          | k :: rest => do
            put r (.iterator t (.members home all rest))
            return .item (memberShown t now k)
          | [] =>
            if !isSet && !Value.sameKeys now.members all && all.any (fun k => !now.hasMember k) then
              raise "RuntimeError" "dictionary keys changed during iteration"
            else do
              put r (.iterator t (.items []))
              ended
      | .listAt l i =>
        match ← obj l with
        | .list xs =>
          match xs[i]? with
          | some v => do
            put r (.iterator t (.listAt l (i + 1)))
            return .item v
          | none => do
            put r (.iterator t (.items []))
            ended
        | _ => ended
      | .count a b c =>
        if (if c > 0 then a < b else a > b) then do
          put r (.iterator t (.count (a + c) b c))
          return .item (.int a)
        else ended
      | .enumerate inner n =>
        match ← nextTask inner with
        | some v => do
          put r (.iterator t (.enumerate inner (n + 1)))
          return .item (.tuple [.int n, v])
        | none => ended
      | .zip inners =>
        if inners.isEmpty then ended
        else match ← nextAll inners with
          | some vs => return .item (.tuple vs)
          | none => ended
      | .map f inners =>
        match ← nextAll inners with
        | some vs => return .item (← valueOf (.apply f vs []))
        | none => ended
      | .filter f inner =>
        match ← nextTask inner with
        | none => ended
        | some v => do
          let keep ← match f with
            | .none => truthOf v
            | f => do truthOf (← valueOf (.apply f [v] []))
          if keep then return .item v
          else match ← nextTask iter with
            | some v => return .item v
            | none => ended
      | .calls f sentinel => do
        let v ← valueOf (.apply f [] [])
        if ← equalTask v sentinel then do
          put r (.iterator t (.items []))
          ended
        else return .item v
      | .sequence o i => do
        match ← attempt (valueOf (.apply (.native "getitem") [o, .int i] [])) with
        | .ok v => do
          put r (.iterator t (.sequence o (i + 1)))
          return .item v
        | .error e =>
          if (← isKind e "IndexError") || (← isKind e "StopIteration") then do
            put r (.iterator t (.items []))
            ended
          else fail e
    | _ =>
      match ← userMethod iter "__next__" with
      | some f => do
        match ← attempt (valueOf (.apply f [iter] [])) with
        | .ok v => return .item v
        | .error e => if ← isKind e "StopIteration" then return .ended (← stopValue e) else fail e
      | none => typeError ("'" ++ (← typeName iter) ++ "' object is not an iterator")
  | v => typeError ("'" ++ (← typeName v) ++ "' object is not an iterator")

/-- Every item of a value. -/
def collectAll (v : Value) : M (List Value) := do
  match v with
  | .tuple xs => return xs
  | .text s => return s.toList.map fun c => .text (String.singleton c)
  | .bytes bs => return bs.map fun b => .int b.toNat
  | .range a b c => return (rangeItems a b c).map .int
  | _ =>
    let slow : M (List Value) := do
      match ← valueOf (.collect (← iterOf v) []) with
      | .tuple xs => return xs
      | _ => return []
    match v with
    | .ref r =>
      match ← obj r with
      | .list xs => return xs.toList
      | .dict _ | .names _ | .set .. => return (← obj r).members
      | .view t d => return viewItems t (← obj d).entries
      | _ => slow
    | _ => slow

/-- One step of collecting. -/
def collectStep (iter : Value) (found : List Value) : M Signal := do
  match ← nextTask iter with
  | some v => return .goOn (.collect iter (v :: found))
  | none => return .value (.tuple found.reverse)

end Evalbox.M
