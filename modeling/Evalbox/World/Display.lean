import Evalbox.World.Drive

/-!
# Values on a screen

What a screen shows of a value that a snippet returned. Containers are shown item by item, and one that
stands within itself as dots. An item that fails to be shown is shown by its error, and a value of which
nothing would be seen by a remark.
-/

namespace Evalbox

namespace World

/-- The text of a value by its own class, or its error. -/
def ownText (w : World) (v : Value) : String × World :=
  match w.drive w.world.clock textBudget (.start w.world.heap (.show v false)) with
  | (.through h (.ok (.value (.text s))), w) => (s, w.settle h)
  | (.through h (.error e), w) =>
    let (s, w) := (w.settle h).textOf (.text (.ref e.exc))
    ("<repr-error " ++ Text.quote s ++ ">", w)
  | (_, w) => ("", w)

/-- Show one thing after the other. -/
def eachText {α : Type} (textOne : α → World → String × World) (w : World) (xs : List α) : List String × World :=
  let (shown, w) := xs.foldl (fun (acc : List String × World) x =>
    let (s, w) := textOne x acc.2
    (s :: acc.1, w)) ([], w)
  (shown.reverse, w)

/-- Show a value, within the containers `around` it. The fuel bounds the depth. -/
def itemText : Nat → List Ref → Value → World → String × World
  | 0, _, v, w => w.ownText v
  | fuel + 1, around, v, w =>
    let items (before after : String) (around : List Ref) (xs : List Value) : String × World :=
      let (shown, w) := w.eachText (itemText fuel around) xs
      (before ++ M.joined shown ++ after, w)
    let entries (around : List Ref) (es : List (Value × Value)) : String × World :=
      let (shown, w) := w.eachText (fun (e : Value × Value) w =>
        let (key, w) := w.ownText e.1
        let (item, w) := itemText fuel around e.2 w
        (key ++ ": " ++ item, w)) es
      (M.braces (M.joined shown), w)
    match v with
    | .tuple [x] => items "(" ",)" around [x]
    | .tuple xs => items "(" ")" around xs
    | .ref r =>
      if around.contains r then ("...", w)
      else match w.world.heap.get r with
        | .list xs => items "[" "]" (r :: around) xs.toList
        | .set false (x :: xs) => items "\x7b" "\x7d" (r :: around) (Value.listed (x :: xs))
        | .set true (x :: xs) => items "frozenset(\x7b" "\x7d)" (r :: around) (Value.listed (x :: xs))
        | .dict es => entries (r :: around) es
        | .names ns => entries (r :: around) (Obj.names ns).entries
        | _ => w.ownText v
    | v => w.ownText v

/-- What a screen shows of a value. -/
def display (w : World) (v : Value) : String × World :=
  let (s, w) := itemText Heap.depthLimit [] v w
  if s.isEmpty then
    let h := w.world.heap
    ("<class '" ++ h.fullName (h.classOf v) ++ "'>.__repr__ returned empty string", w)
  else (s, w)

/-- A value that a snippet returned. -/
def produced (w : World) (v : Value) : Produced × World :=
  let h := w.world.heap
  let (text, w) := w.display v
  (⟨h.datum Heap.depthLimit v, h.typeName v, h.languageClasses v, text⟩, w)

end World

end Evalbox
