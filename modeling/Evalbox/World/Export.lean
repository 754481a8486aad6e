import Evalbox.World.Basic

/-!
# What is seen of a heap

Values and exceptions of a snippet as they are reported: values as data down to a certain depth, exceptions
with the frames and links by which they are attributed.
-/

namespace Evalbox

namespace Heap

/-- How deep a value is looked into. -/
def depthLimit : Nat := 100

/-- A value as a datum. -/
def datum (h : Heap) : Nat → Value → Datum
  | 0, _ => .deep
  | fuel + 1, v =>
    let items (xs : List Value) : List Datum := xs.map (h.datum fuel)
    let entries (es : List (Value × Value)) : List (Datum × Datum) := es.map fun (k, w) => (h.datum fuel k, h.datum fuel w)
    match v with
    | .none => .none
    | .bool b => .bool b
    | .int n => .int n
    | .float x => .float x
    | .text s => .text s
    | .bytes b => .bytes b
    | .tuple xs => .tuple (items xs)
    | .ref r =>
      match h.get r with
      | .list xs => .list (items xs.toList)
      | .dict es => .dict (entries es)
      | .names ns => .dict (entries (Obj.names ns).entries)
      | .set _ xs => .set (items (Value.listed xs))
      | .cls i => .classOf i.name
      | _ => .object (h.typeName v)
    | v => .object (h.typeName v)

/-- The classes of the language that a value belongs to. -/
def languageClasses (h : Heap) (v : Value) : List String :=
  ((h.classInfo (h.classOf v)).lineage.filter (· < builtinClasses.length)).map h.className

/-- The exceptions that links lead to. The fuel bounds their number. -/
def linked (h : Heap) : Nat → List Ref → List Ref → List Ref
  | 0, done, _ => done
  | _, done, [] => done
  | fuel + 1, done, r :: rest =>
    if done.contains r then linked h fuel done rest
    else
      let i := h.exceptionInfo r
      linked h fuel (done ++ [r]) (rest ++ i.cause.toList ++ i.context.toList)

/-- What is known about the exceptions behind one. -/
def raisings (h : Heap) (refs : List Ref) : Raisings Nat :=
  ⟨refs.map fun r =>
    let i := h.exceptionInfo r
    (r, ⟨i.frames, i.cause, i.context, i.suppressed⟩)⟩

end Heap

end Evalbox
