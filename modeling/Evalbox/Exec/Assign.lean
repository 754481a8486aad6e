import Evalbox.Exec.Expressions

/-!
# Assignment and deletion

What an assignment does to a name, an attribute, an item, or several of them at once, and how names and
items are deleted.
-/

namespace Evalbox.M

open Lang

/-- The first items of an iterator, at most `n`. -/
def takeItems (it : Value) : Nat → M (List Value)
  | 0 => return []
  | n + 1 => do
    match ← nextTask it with
    | some v => return v :: (← takeItems it n)
    | none => return []

/-- The items that several targets are to be given. `star` is the place of the target that takes what is
left over. -/
def unpack (v : Value) (count : Nat) (star : Option Nat) : M (List Value) := do
  let it ← match ← attempt (iterOf v) with
    | .ok it => pure it
    | .error e => do
      if ← isKind e "TypeError" then typeError ("cannot unpack non-iterable " ++ (← typeName v) ++ " object")
      else fail e
  match star with
  | none =>
    let items ← takeItems it (count + 1)
    if items.length < count then
      valueError ("not enough values to unpack (expected " ++ toString count ++ ", got " ++
        toString items.length ++ ")")
    else if items.length > count then
      valueError ("too many values to unpack (expected " ++ toString count ++ ")")
    else return items
  | some place =>
    let items ← collectAll it
    let least := count - 1
    if items.length < least then
      valueError ("not enough values to unpack (expected at least " ++ toString least ++ ", got " ++
        toString items.length ++ ")")
    else
      let tail := count - place - 1
      let middle := (items.take (items.length - tail)).drop place
      let rest ← make (.list middle.toArray)
      return items.take place ++ [rest] ++ items.drop (items.length - tail)

/-- Set an item, after collecting what a slice is given. -/
def assignItem (v i w : Value) : M Unit := do
  let items ← match i with
    | .slice .. => do
      match ← attempt (collectAll w) with
      | .ok xs => pure xs
      | .error e => if ← isKind e "TypeError" then typeError "can only assign an iterable" else fail e
    | _ => pure []
  setItem v i w items

/-- Assign a value to a target. The fuel bounds the nesting of targets. -/
def assign (env : Env) : Nat → Expr → Value → M Unit
  | 0, _, _ => return ()
  | depth + 1, target, v => do
    let line := target.span.start.line
    match target with
    | .name _ id => bindName env id v
    | .attr s o n => do
      let o ← part env o
      atLine s.stop.line (setAttr o (env.spell n) v)
    | .subscript _ o i => do
      let o ← part env o
      let i ← indexPart env i
      atLine line (assignItem o i v)
    | .list _ ts | .tuple _ ts => do
      let star := ts.findIdx? fun t => t matches .starred ..
      let items ← atLine line (unpack v ts.length star)
      assignAll depth (ts.zip items)
    | .starred _ t => assign env depth t v
    | _ => return ()
where
  assignAll (depth : Nat) : List (Expr × Value) → M Unit
    | [] => return ()
    | (t, v) :: rest => do
      assign env depth t v
      assignAll depth rest

/-- What an augmented assignment makes of two values. Lists, sets and dicts change in place. -/
def augment (op : BinaryOp) (a b : Value) : M Value := do
  let plain : M Value := binary (symbolOf op ++ "=") op a b
  match ← tryUser a ("__i" ++ methodStem op ++ "__") b with
  | some v => return v
  | none =>
    match a with
    | .ref r =>
      match ← obj r, op with
      | .list xs, .add => do
        let items ← collectAll b
        match ← obj r with
        | .list ys => put r (.list (ys ++ items.toArray))
        | _ => put r (.list (xs ++ items.toArray))
        return a
      | .list _, .mul => do
        match ← plain with
        | .ref q => do
          put r (← obj q)
          return a
        | v => return v
      | .set false _, _ | .dict _, .bitOr => do
        match ← plain with
        | .ref q => do
          put r (← obj q)
          return a
        | v => return v
      | _, _ => plain
    | _ => plain

/-- Carry out an augmented assignment. -/
def assignAugmented (env : Env) (line : Nat) (target : Expr) (op : BinaryOp) (value : Expr) : M Unit := do
  let own := target.span.start.line
  match target with
  | .name _ id => do
    let old ← atLine own (readName env id)
    let v ← part env value
    bindName env id (← atLine line (augment op old v))
  | .attr s o n => do
    let o ← part env o
    let old ← atLine s.stop.line (valueOf (.getAttr o (env.spell n)))
    let v ← part env value
    let new ← atLine line (augment op old v)
    atLine s.stop.line (setAttr o (env.spell n) new)
  | .subscript _ o i => do
    let o ← part env o
    let i ← indexPart env i
    let old ← atLine own (valueOf (.apply (.native "getitem") [o, i] []))
    let v ← part env value
    let new ← atLine line (augment op old v)
    atLine own (assignItem o i new)
  | _ => return ()

/-- Delete a target. The fuel bounds the nesting of targets. -/
def delete (env : Env) : Nat → Expr → M Unit
  | 0, _ => return ()
  | depth + 1, target => do
    let line := target.span.start.line
    match target with
    | .name _ id => atLine line (dropName env id)
    | .attr s o n => do
      let o ← part env o
      atLine s.stop.line (dropAttr o (env.spell n))
    | .subscript _ o i => do
      let o ← part env o
      let i ← indexPart env i
      atLine line (dropItem o i)
    | .list _ ts | .tuple _ ts => deleteAll depth ts
    | _ => return ()
where
  deleteAll (depth : Nat) : List Expr → M Unit
    | [] => return ()
    | t :: rest => do
      delete env depth t
      deleteAll depth rest

/-- One step of a comprehension: the innermost clause hands its items to the sink. -/
def clauseStep (env : Env) (clauses : List Clause) (iter : Option Value) (sink : Sink) : M Signal := do
  match clauses, iter with
  | [], _ => do
    match sink with
    | .list r e => do
      append r (← part env e)
    | .set r e => do
      let v ← part env e
      atLine e.span.start.line (needHashable v)
      match ← obj r with
      | .set f xs => put r (.set f (putItem xs v))
      | _ => pure ()
    | .dict r k e => do
      let k ← part env k
      let v ← part env e
      atLine e.span.start.line (needHashable k)
      match ← obj r with
      | .dict es => put r (.dict (putEntry es k v))
      | _ => pure ()
    | .yields e => do
      let v ← part env e
      let _ ← atLine e.span.start.line (yieldValue v)
    return .next
  | .mk _ _ e _ :: _, none => do
    let v ← part env e
    let it ← atLine e.span.start.line (iterOf v)
    return .goOn (.clauses env clauses (some it) sink)
  | .mk _ target _ conditions :: rest, some it => do
    match ← nextTask it with
    | none => return .next
    | some v => do
      assign env treeBound target v
      if ← allTrue conditions then
        let _ ← run (.clauses env rest none sink)
      return .goOn (.clauses env clauses iter sink)
where
  allTrue : List Expr → M Bool
    | [] => return true
    | e :: rest => do
      if ← truthOf (← part env e) then allTrue rest else return false

end Evalbox.M
