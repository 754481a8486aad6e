import Evalbox.Exec.Items

/-!
# Templates

A template is a text with slots between braces. A slot names a value by position or by name, may walk on
from it along attributes and items, and says how the value is converted and laid out; the layout may have
slots of its own. Slots without a name are numbered in order, and a template either numbers its slots
itself or leaves all of them to be numbered. Faults of a template come up when its text is reached, behind
those of the slots in front.
-/

namespace Evalbox

/-- A slot of a template. -/
structure Slot where
  name : List Char
  conversion : Option Char
  spec : List Char
  deriving DecidableEq, Repr

namespace Slot

/-- The text in front of the next slot, and what follows its opening brace if there is a slot. Doubled
braces stand for themselves. -/
def leadingText : List Char → List Char → Except String (List Char × Option (List Char))
  | done, [] => .ok (done.reverse, none)
  | done, '\x7b' :: '\x7b' :: cs => leadingText ('\x7b' :: done) cs
  | done, '\x7d' :: '\x7d' :: cs => leadingText ('\x7d' :: done) cs
  | _, '\x7d' :: _ => .error "Single '\x7d' encountered in format string"
  | _, ['\x7b'] => .error "Single '\x7b' encountered in format string"
  | done, '\x7b' :: cs => .ok (done.reverse, some cs)
  | done, c :: cs => leadingText (c :: done) cs

/-- The name of a slot, the character that ends it and the rest. Between brackets anything is part of the
name. -/
def readName : Bool → List Char → List Char → Except String (List Char × Option Char × List Char)
  | _, done, [] => .ok (done.reverse, none, [])
  | true, done, c :: cs => readName (c ≠ ']') (c :: done) cs
  | false, done, c :: cs =>
    if c = '\x7b' then .error "unexpected '\x7b' in field name"
    else if c = '\x7d' || c = ':' || c = '!' then .ok (done.reverse, some c, cs)
    else readName (c = '[') (c :: done) cs

/-- A layout up to the brace that closes its slot, and the rest. -/
def readSpec : Nat → List Char → List Char → Except String (List Char × List Char)
  | _, _, [] => .error "unmatched '\x7b' in format spec"
  | depth, done, c :: cs =>
    if c = '\x7d' then
      match depth with
      | 0 => .ok (done.reverse, cs)
      | depth + 1 => readSpec depth (c :: done) cs
    else readSpec (if c = '\x7b' then depth + 1 else depth) (c :: done) cs

/-- Read a slot behind its opening brace. -/
def read (cs : List Char) : Except String (Slot × List Char) := do
  let (name, stop, rest) ← readName false [] cs
  let layout (conversion : Option Char) (cs : List Char) : Except String (Slot × List Char) := do
    let (spec, rest) ← readSpec 0 [] cs
    return (⟨name, conversion, spec⟩, rest)
  match stop with
  | none => .error "expected '\x7d' before end of string"
  | some '!' =>
    match rest with
    | [] => .error "end of string while looking for conversion specifier"
    | k :: '\x7d' :: rest => return (⟨name, some k, []⟩, rest)
    | k :: ':' :: rest => layout (some k) rest
    | [k] => layout (some k) []
    | _ => .error "expected ':' after conversion specifier"
  | some ':' => layout none rest
  | some _ => return (⟨name, none, []⟩, rest)

/-- The first part of a name, in front of the attributes and items that are asked of it. -/
def root (name : List Char) : List Char := name.takeWhile fun c => c ≠ '.' && c ≠ '['

end Slot

/-- How the slots of a template are numbered so far. -/
inductive Numbering where
  | unused
  | automatic (next : Nat)
  | manual
  deriving DecidableEq, Repr

/-- What fills the slots of a template. -/
structure Fillers where
  positional : Option (List Value)
  named : String → M Value

namespace M

/-- Walk from a value along attributes and items. The fuel bounds the steps. -/
def walkPath : Nat → Value → List Char → M Value
  | 0, v, _ => return v
  | fuel + 1, v, cs => do
    let empty : M Value := valueError "Empty attribute in format string"
    match cs with
    | [] => return v
    | '.' :: cs =>
      let name := Slot.root cs
      if name.isEmpty then empty
      else walkPath fuel (← valueOf (.getAttr v (String.ofList name))) (cs.drop name.length)
    | '[' :: cs =>
      let key := cs.takeWhile (· ≠ ']')
      if cs.length = key.length then valueError "Missing ']' in format string"
      else if key.isEmpty then empty
      else
        let index : Value := match (String.ofList key).toNat? with
          | some n => .int n
          | none => .text (String.ofList key)
        walkPath fuel (← getItem v index) (cs.drop (key.length + 1))
    | _ => valueError "Only '.' or '[' may follow ']' in format field specifier"

/-- The value that fills a slot of this name. -/
def pickFiller (f : Fillers) (n : Numbering) (name : List Char) : M (Value × Numbering) := do
  let root := Slot.root name
  let at_ (i : Nat) : M Value := do
    match f.positional with
    | none => valueError "Format string contains positional fields"
    | some vs => match vs[i]? with
      | some v => return v
      | none => raise "IndexError" ("Replacement index " ++ toString i ++ " out of range for positional args tuple")
  let switch (a b : String) : M (Value × Numbering) :=
    valueError ("cannot switch from " ++ a ++ " to " ++ b)
  let (v, n) ← (match root, (String.ofList root).toNat?, n with
    | [], _, .manual => switch "manual field specification" "automatic field numbering"
    | [], _, .automatic i => return (← at_ i, .automatic (i + 1))
    | [], _, .unused => return (← at_ 0, .automatic 1)
    | _, some _, .automatic _ => switch "automatic field numbering" "manual field specification"
    | _, some i, _ => return (← at_ i, .manual)
    | _, none, n => return (← f.named (String.ofList root), n) : M (Value × Numbering))
  return (← walkPath (name.length + 1) v (name.drop root.length), n)

/-- A value under the conversion of its slot. -/
def converted (v : Value) (c : Option Char) : M Value := do
  match c with
  | none => return v
  | some 'r' => return .text (← shownTask v)
  | some 's' => return .text (← textTask v)
  | some 'a' => return .text (← asciiText v)
  | some c =>
    valueError ("Unknown conversion specifier " ++
      (if 32 < c.toNat && c.toNat < 127 then String.singleton c else "\\x" ++ String.ofList (Text.hex 1 c.toNat)))

/-- Fill the slots of a template, with `inner` for those of its layouts. The fuel bounds the slots. -/
def fillSlots (f : Fillers) (inner : Numbering → List Char → M (List Char × Numbering)) :
    Nat → Numbering → List Char → M (List Char × Numbering)
  | 0, n, _ => return ([], n)
  | fuel + 1, n, cs => do
    match Slot.leadingText [] cs with
    | .error e => valueError e
    | .ok (text, none) => return (text, n)
    | .ok (text, some rest) =>
      match Slot.read rest with
      | .error e => valueError e
      | .ok (slot, rest) => do
        let (v, n) ← pickFiller f n slot.name
        let v ← converted v slot.conversion
        let (spec, n) ← if slot.spec.contains '\x7b' then inner n slot.spec else pure (slot.spec, n)
        let shown ← formatValue v (String.ofList spec)
        let (more, n) ← fillSlots f inner fuel n rest
        return (text ++ shown.toList ++ more, n)

/-- Fill a template. Layouts may have slots, but those no further ones. -/
def fillTemplate (f : Fillers) (cs : List Char) : M Value := do
  let level (inner : Numbering → List Char → M (List Char × Numbering)) (n : Numbering) (cs : List Char) :
      M (List Char × Numbering) := fillSlots f inner (cs.length + 1) n cs
  let (text, _) ← level (level fun _ _ => valueError "Max string recursion exceeded") .unused cs
  return .text (String.ofList text)

end M

end Evalbox
