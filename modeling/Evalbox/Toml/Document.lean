import Evalbox.Toml.Scalar

/-!
# Documents

A document is a sequence of key/value pairs and table headers. `Document` keeps the data read so far
and which tables may no longer be opened or changed: a table can be declared once, the tables on the
way of a dotted key cannot be declared later, and values written inline cannot be extended.
-/

namespace Evalbox.Toml

/-- The entries of a table, in order. -/
abbrev Table := List (Datum × Datum)

/-- Bind a key of a table: in place if it is bound, at the end otherwise. -/
def Table.put (t : Table) (k : String) (v : Datum) : Table :=
  if (Datum.entry? t k).isSome then
    t.map fun (n, w) => match n with
      | .text s => if s = k then (n, v) else (n, w)
      | _ => (n, w)
  else t ++ [(.text k, v)]

/-- Change the table behind a dotted key, which comes into being if it is not there. A list of tables
on the way stands for its last table if `lists` says so. Answers none if something else is on the
way. -/
def Table.change (lists : Bool) (f : Table → Option Table) : Key → Table → Option Table
  | [], t => f t
  | k :: ks, t =>
    match Datum.entry? t k with
    | none => (Table.change lists f ks []).map fun inner => t.put k (.dict inner)
    | some (.dict inner) => (Table.change lists f ks inner).map fun inner => t.put k (.dict inner)
    | some (.list items) =>
      match lists, items.getLast? with
      | true, some (.dict inner) =>
        (Table.change lists f ks inner).map fun inner => t.put k (.list (items.dropLast ++ [.dict inner]))
      | _, _ => none
    | some _ => none

/-- Append an empty table to the list of tables under a key. -/
def Table.addToList (k : String) (t : Table) : Option Table :=
  match Datum.entry? t k with
  | none => some (t.put k (.list [.dict []]))
  | some (.list items) => some (t.put k (.list (items ++ [.dict []])))
  | some _ => none

/-- Keys that may not be extended, which covers what lies below them, and keys that may not be
declared. -/
structure Marks where
  frozen : List Key
  declared : List Key
  deriving Inhabited

namespace Marks

def isFrozen (m : Marks) (k : Key) : Bool := m.frozen.any (·.isPrefixOf k)
def isDeclared (m : Marks) (k : Key) : Bool := m.declared.contains k
def freeze (m : Marks) (k : Key) : Marks := { m with frozen := k :: m.frozen }
def declare (m : Marks) (k : Key) : Marks := { m with declared := k :: m.declared }

/-- Forget everything about a key and what lies below it. -/
def release (m : Marks) (k : Key) : Marks :=
  ⟨m.frozen.filter (!k.isPrefixOf ·), m.declared.filter (!k.isPrefixOf ·)⟩

end Marks

/-- What was read so far. `header` is the table that pairs go to, and `pending` are keys to be marked
as declared when the next header comes. -/
structure Document where
  data : Table
  marks : Marks
  pending : List Key
  header : Key
  deriving Inhabited

def Datum.isNested : Datum → Bool
  | .dict _ | .list _ => true
  | _ => false

mutual

/-- A value. The fuel bounds how deep values nest and how many there are. -/
def value : Nat → Reader Datum
  | 0 => fun cs => stop cs .value
  | fuel + 1 => fun cs =>
    match string? cs with
    | some r => r.map fun (s, rest) => (.text (String.ofList s), rest)
    | none =>
      match strip? "true".toList cs with
      | some rest => .ok (.bool true, rest)
      | none =>
        match strip? "false".toList cs with
        | some rest => .ok (.bool false, rest)
        | none =>
          match cs with
          | '[' :: rest => do
            let rest ← skipLines fuel rest
            match rest with
            | ']' :: rest => .ok (.list [], rest)
            | rest => items fuel [] rest
          | '\x7b' :: rest =>
            match skipSpace rest with
            | '\x7d' :: rest => .ok (.dict [], rest)
            | rest => pairs fuel ⟨[], []⟩ [] rest
          | _ =>
            match dated? cs with
            | some r => r.map fun (m, rest) => (.moment m, rest)
            | none =>
              match clock? cs, based? cs, decimal? cs, named? cs with
              | some (t, rest), _, _, _ => .ok (.moment (.time t), rest)
              | _, some r, _, _ => .ok r
              | _, _, some r, _ => r
              | _, _, _, some r => .ok r
              | _, _, _, _ => stop cs .value

/-- The items of an array, from the first one on. -/
def items : Nat → List Datum → Reader Datum
  | 0, _ => fun cs => stop cs .arrayEnd
  | fuel + 1, read => fun cs => do
    let (v, rest) ← value fuel cs
    let rest ← skipLines fuel rest
    let read := v :: read
    match rest with
    | ']' :: rest => .ok (.list read.reverse, rest)
    | ',' :: rest => do
      let rest ← skipLines fuel rest
      match rest with
      | ']' :: rest => .ok (.list read.reverse, rest)
      | rest => items fuel read rest
    | rest => stop rest .arrayEnd

/-- The pairs of an inline table, from the first one on. -/
def pairs : Nat → Marks → Table → Reader Datum
  | 0, _, _ => fun cs => stop cs .inlineEnd
  | fuel + 1, marks, read => fun cs => do
    let ((k, v), rest) ← pair fuel cs
    let parent := k.dropLast
    let stem := k.getLast?.getD ""
    if marks.isFrozen k then stop rest (.immutable k)
    else
      let add (t : Table) : Option Table := if (Datum.entry? t stem).isSome then none else some (t.put stem v)
      match Table.change false some parent read with
      | none => stop rest .overwritten
      | some _ =>
        match Table.change false add parent read with
        | none => stop rest (.duplicate stem)
        | some read =>
          match skipSpace rest with
          | '\x7d' :: rest => .ok (.dict read, rest)
          | ',' :: rest =>
            pairs fuel (if Datum.isNested v then marks.freeze k else marks) read (skipSpace rest)
          | rest => stop rest .inlineEnd

/-- A key and its value. -/
def pair : Nat → Reader (Key × Datum)
  | 0 => fun cs => stop cs .equalSign
  | fuel + 1 => fun cs => do
    let (k, rest) ← key fuel cs
    match rest with
    | '=' :: rest => do
      let (v, rest) ← value fuel (skipSpace rest)
      .ok ((k, v), rest)
    | rest => stop rest .equalSign

/-- Skip blanks, line ends and comments. -/
def skipLines : Nat → List Char → Except Stop (List Char)
  | 0, cs => .ok cs
  | fuel + 1, cs => do
    let rest ← skipComment (cs.dropWhile isSpaceOrLine)
    if rest.length = cs.length then .ok rest else skipLines fuel rest

end

namespace Document

def empty : Document := ⟨[], ⟨[], []⟩, [], []⟩

/-- Mark the tables on the way of earlier dotted keys as declared. -/
def settle (d : Document) : Document :=
  { d with marks := d.pending.foldl Marks.declare d.marks, pending := [] }

/-- A table header, behind its bracket. -/
def table (fuel : Nat) (d : Document) (cs : List Char) : Except Stop (Document × List Char) := do
  let (k, rest) ← key fuel (skipSpace cs)
  if d.marks.isDeclared k || d.marks.isFrozen k then stop rest (.tableTwice k)
  else match Table.change true some k d.data with
    | none => stop rest .overwritten
    | some data =>
      match rest with
      | ']' :: rest => .ok ({ d with data, marks := d.marks.declare k, header := k }, rest)
      | rest => stop rest .tableEnd

/-- A header of a list of tables, behind its brackets. -/
def tables (fuel : Nat) (d : Document) (cs : List Char) : Except Stop (Document × List Char) := do
  let (k, rest) ← key fuel (skipSpace cs)
  if d.marks.isFrozen k then stop rest (.immutable k)
  else match Table.change true (Table.addToList (k.getLast?.getD "")) k.dropLast d.data with
    | none => stop rest .overwritten
    | some data =>
      match rest with
      | ']' :: ']' :: rest =>
        .ok ({ d with data, marks := (d.marks.release k).declare k, header := k }, rest)
      | rest => stop rest .tablesEnd

/-- The tables on the way of a dotted key, behind the header. -/
def waypoints (header k : Key) : List Key :=
  (List.range (k.length - 1)).map fun i => header ++ k.take (i + 1)

/-- A pair under the current header. -/
def entry (fuel : Nat) (d : Document) (cs : List Char) : Except Stop (Document × List Char) := do
  let ((k, v), rest) ← pair fuel cs
  let ways := waypoints d.header k
  let parent := d.header ++ k.dropLast
  let stem := k.getLast?.getD ""
  match ways.find? d.marks.isDeclared with
  | some w => stop rest (.redefined w)
  | none =>
    if d.marks.isFrozen parent then stop rest (.immutable parent)
    else
      let add (t : Table) : Option Table := if (Datum.entry? t stem).isSome then none else some (t.put stem v)
      match Table.change true add parent d.data with
      | none => stop rest .overwritten
      | some data =>
        .ok ({ d with
          data
          marks := if Datum.isNested v then d.marks.freeze (d.header ++ k) else d.marks
          pending := ways ++ d.pending }, rest)

/-- What may stand at the front of a line. -/
def statement (fuel : Nat) (d : Document) (cs : List Char) : Except Stop (Document × List Char) :=
  match cs with
  | '[' :: '[' :: rest => tables fuel d.settle rest
  | '[' :: rest => table fuel d.settle rest
  | '#' :: _ => .ok (d, cs)
  | c :: _ =>
    if isBare c || c = '"' || c = '\'' then entry fuel d cs else stop cs .statement
  | [] => .ok (d, [])

/-- Read line by line. -/
def lines : Nat → Document → List Char → Except Stop Document
  | 0, d, _ => .ok d
  | fuel + 1, d, cs =>
    match skipSpace cs with
    | [] => .ok d
    | '\n' :: rest => lines fuel d rest
    | cs => do
      let (d, rest) ← statement (fuel + 1) d cs
      let rest ← skipComment (skipSpace rest)
      match rest with
      | [] => .ok d
      | '\n' :: rest => lines fuel d rest
      | rest => stop rest .statementEnd

end Document

/-- Carriage returns in front of line feeds are dropped. -/
def plainLines : List Char → List Char
  | '\r' :: '\n' :: rest => '\n' :: plainLines rest
  | c :: rest => c :: plainLines rest
  | [] => []

/-- Read a document into its table. -/
def read (text : String) : Except Fault Table :=
  let cs := plainLines text.toList
  match Document.empty.lines (2 * cs.length + 8) cs with
  | .ok d => .ok d.data
  | .error s => .error (s.fault cs)

end Evalbox.Toml
