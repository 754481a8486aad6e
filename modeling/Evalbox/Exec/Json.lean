import Evalbox.Exec.Functions

/-!
# Texts in JSON

Reading a value from a text in JSON notation and writing it. The text of an error names the place where
reading stopped.
-/

namespace Evalbox

/-- Why a text is no value: a message and how many characters were left. -/
structure JsonFault where
  text : String
  left : Nat
  deriving Repr

/-- A value as it is read. -/
inductive JsonValue where
  | null
  | bool (b : Bool)
  | int (n : Int)
  | float (x : Float)
  | text (s : String)
  | list (items : List JsonValue)
  | dict (entries : List (String × JsonValue))
  deriving Inhabited

namespace JsonValue

abbrev Reads (α : Type) := Except JsonFault (α × List Char)

def isSpace (c : Char) : Bool := c = ' ' || c = '\n' || c = '\r' || c = '\t'

def skip (cs : List Char) : List Char := cs.dropWhile isSpace

def stop {α : Type} (text : String) (at_ : List Char) : Except JsonFault α := .error ⟨text, at_.length⟩

/-- Read a quoted text, behind its first quote. -/
def readText (whole : List Char) : List Char → List Char → Reads (List Char)
  | _, [] => stop "Unterminated string starting at" whole
  | done, '"' :: cs => .ok (done.reverse, cs)
  | done, '\\' :: 'u' :: a :: b :: c :: d :: cs =>
    match [a, b, c, d].mapM (Text.baseDigit? 16) with
    | some ds => readText whole (Char.ofNat (Number.ofDigits 16 ds) :: done) cs
    | none => stop "Invalid \\uXXXX escape" ('u' :: a :: b :: c :: d :: cs)
  | done, '\\' :: c :: cs =>
    match [('"', '"'), ('\\', '\\'), ('/', '/'), ('b', '\x08'), ('f', '\x0c'), ('n', '\n'), ('r', '\r'), ('t', '\t')].lookup c with
    | some x => readText whole (x :: done) cs
    | none => stop "Invalid \\escape" ('\\' :: c :: cs)
  | done, c :: cs => if c.toNat < 32 then stop "Invalid control character at" (c :: cs) else readText whole (c :: done) cs

/-- Read a number. -/
def readNumber (cs : List Char) : Reads JsonValue :=
  let (negative, body) : Bool × List Char := match cs with
    | '-' :: r => (true, r)
    | r => (false, r)
  let digits (cs : List Char) : List Char := cs.takeWhile Char.isDigit
  let whole := match body with
    | '0' :: _ => ['0']
    | _ => digits body
  if whole.isEmpty then stop "Expecting value" cs
  else
    let rest := body.drop whole.length
    let (fraction, rest) : List Char × List Char := match rest with
      | '.' :: r => if (digits r).isEmpty then ([], rest) else ('.' :: digits r, r.drop (digits r).length)
      | _ => ([], rest)
    let (exponent, rest) : List Char × List Char := match rest with
      | e :: r =>
        if e = 'e' || e = 'E' then
          let sign := match r with
            | '-' :: _ => ['-']
            | '+' :: _ => ['+']
            | _ => []
          let ds := digits (r.drop sign.length)
          if ds.isEmpty then ([], rest) else (e :: sign ++ ds, r.drop (sign.length + ds.length))
        else ([], rest)
      | [] => ([], rest)
    let sign := if negative then ['-'] else []
    if fraction.isEmpty && exponent.isEmpty then
      let n : Int := (String.ofList whole).toNat?.getD 0
      .ok (int (if negative then -n else n), rest)
    else .ok (float ((Number.readFloat? (sign ++ whole ++ fraction ++ exponent)).getD 0), rest)

mutual

/-- Read a value. The fuel bounds its length. -/
def read : Nat → List Char → Reads JsonValue
  | 0, cs => stop "Expecting value" cs
  | fuel + 1, cs =>
    match cs with
    | '"' :: r => (readText cs [] r).map fun (s, r) => (text (String.ofList s), r)
    | '[' :: r =>
      match skip r with
      | ']' :: r => .ok (list [], r)
      | r => (readItems fuel r).map fun (xs, r) => (list xs, r)
    | '\x7b' :: r =>
      match skip r with
      | '\x7d' :: r => .ok (dict [], r)
      | r => (readEntries fuel r).map fun (es, r) => (dict es, r)
    | 'n' :: 'u' :: 'l' :: 'l' :: r => .ok (null, r)
    | 't' :: 'r' :: 'u' :: 'e' :: r => .ok (bool true, r)
    | 'f' :: 'a' :: 'l' :: 's' :: 'e' :: r => .ok (bool false, r)
    | cs => readNumber cs

def readItems : Nat → List Char → Reads (List JsonValue)
  | 0, cs => stop "Expecting value" cs
  | fuel + 1, cs =>
    match read fuel cs with
    | .error e => .error e
    | .ok (x, r) =>
      match skip r with
      | ']' :: r => .ok ([x], r)
      | ',' :: r => (readItems fuel (skip r)).map fun (xs, r) => (x :: xs, r)
      | r => stop "Expecting ',' delimiter" r

def readEntries : Nat → List Char → Reads (List (String × JsonValue))
  | 0, cs => stop "Expecting value" cs
  | fuel + 1, cs =>
    match cs with
    | '"' :: r =>
      match readText cs [] r with
      | .error e => .error e
      | .ok (k, r) =>
        match skip r with
        | ':' :: r =>
          match read fuel (skip r) with
          | .error e => .error e
          | .ok (v, r) =>
            let entry := (String.ofList k, v)
            match skip r with
            | '\x7d' :: r => .ok ([entry], r)
            | ',' :: r => (readEntries fuel (skip r)).map fun (es, r) => (entry :: es, r)
            | r => stop "Expecting ',' delimiter" r
        | r => stop "Expecting ':' delimiter" r
    | r => stop "Expecting property name enclosed in double quotes" r

end

/-- Read a whole text. -/
def ofText (cs : List Char) : Except JsonFault JsonValue :=
  match read (2 * cs.length + 2) (skip cs) with
  | .error e => .error e
  | .ok (v, r) => if (skip r).isEmpty then .ok v else stop "Extra data" (skip r)

end JsonValue

namespace M

/-- Put a value that was read on the heap. The fuel bounds its depth. -/
def fromJson : Nat → JsonValue → M Value
  | 0, _ => return .none
  | fuel + 1, v => do
    match v with
    | .null => return .none
    | .bool b => return .bool b
    | .int n => return .int n
    | .float x => return .float x
    | .text s => return .text s
    | .list xs => do
      let ys ← xs.mapM (fromJson fuel)
      make (.list ys.toArray)
    | .dict es => do
      let ys ← es.mapM fun (k, w) => return (Value.text k, ← fromJson fuel w)
      make (.dict (merged [] ys))

def loadJson (args : List Value) : M Value := do
  match args.headD .none with
  | .text s =>
    let cs := s.toList
    match JsonValue.ofText cs with
    | .ok v => fromJson (cs.length + 2) v
    | .error e =>
      let pos := cs.length - e.left
      let before := cs.take pos
      let line := before.count '\n' + 1
      let column := (before.reverse.takeWhile (· ≠ '\n')).length + 1
      raise "JSONDecodeError" (e.text ++ ": line " ++ toString line ++ " column " ++ toString column ++
        " (char " ++ toString pos ++ ")")
  | v => do typeError ("the JSON object must be str, bytes or bytearray, not " ++ (← typeName v))

/-- A text between double quotes. -/
def jsonText (ascii : Bool) (s : String) : String :=
  let one (c : Char) : List Char :=
    if c = '"' then ['\\', '"'] else if c = '\\' then ['\\', '\\']
    else if c = '\n' then ['\\', 'n'] else if c = '\r' then ['\\', 'r'] else if c = '\t' then ['\\', 't']
    else if c = '\x08' then ['\\', 'b'] else if c = '\x0c' then ['\\', 'f']
    else if c.toNat < 32 || (ascii && c.toNat = 127) then '\\' :: 'u' :: Text.hex 4 c.toNat
    else if ascii && c.toNat > 127 then
      if c.toNat < 0x10000 then '\\' :: 'u' :: Text.hex 4 c.toNat
      else
        let n := c.toNat - 0x10000
        '\\' :: 'u' :: Text.hex 4 (0xD800 + n / 1024) ++ '\\' :: 'u' :: Text.hex 4 (0xDC00 + n % 1024)
    else [c]
  "\"" ++ String.ofList (s.toList.flatMap one) ++ "\""

/-- The style of a written text. -/
structure JsonStyle where
  indent : Option Nat
  ascii : Bool
  sorted : Bool

/-- Write a value. The fuel bounds its depth. -/
def writeJson (style : JsonStyle) : Nat → Nat → Value → M String
  | 0, _, _ => raise "RecursionError" "maximum recursion depth exceeded while encoding a JSON object"
  | fuel + 1, level, v => do
    let wrap (start stop : String) (items : List String) : String :=
      if items.isEmpty then start ++ stop
      else match style.indent with
        | none => start ++ ", ".intercalate items ++ stop
        | some n =>
          let pad (k : Nat) : String := "\n" ++ String.ofList (List.replicate (n * k) ' ')
          start ++ pad (level + 1) ++ ("," ++ pad (level + 1)).intercalate items ++ pad level ++ stop
    let key (k : Value) : M String := do
      match k with
      | .text s => return s
      | .none => return "null"
      | .bool b => return if b then "true" else "false"
      | .int n => return toString n
      | .float x => return Number.floatText x
      | k => do typeError ("keys must be str, int, float, bool or None, not " ++ (← typeName k))
    let entries (es : List (Value × Value)) : M String := do
      let es := if style.sorted then es.mergeSort fun a b => match directOrder b.1 a.1 with
        | some (some .lt) => false
        | _ => true
        else es
      let parts ← es.mapM fun (k, w) => return jsonText style.ascii (← key k) ++ ": " ++ (← writeJson style fuel (level + 1) w)
      return wrap "\x7b" "\x7d" parts
    let items (xs : List Value) : M String := do
      return wrap "[" "]" (← xs.mapM (writeJson style fuel (level + 1)))
    match v with
    | .none => return "null"
    | .bool b => return if b then "true" else "false"
    | .int n => return toString n
    | .float x => return if x.isNaN then "NaN" else if x.isInf then (if x > 0 then "Infinity" else "-Infinity") else Number.floatText x
    | .text s => return jsonText style.ascii s
    | .tuple xs => items xs
    | .ref r =>
      match ← obj r with
      | .list xs => items xs.toList
      | .dict es => entries es
      | .names ns => entries (Obj.names ns).entries
      | _ => typeError ("Object of type " ++ (← typeName v) ++ " is not JSON serializable")
    | v => do typeError ("Object of type " ++ (← typeName v) ++ " is not JSON serializable")

def dumpJson (args : List Value) (kwargs : Names) : M Value := do
  let flag (name : String) (usual : Bool) : M Bool := match kwargs.lookup name with
    | some v => truthOf v
    | none => return usual
  let style : JsonStyle := ⟨match kwargs.lookup "indent" with
    | some (.int n) => some n.toNat
    | _ => none, ← flag "ensure_ascii" true, ← flag "sort_keys" false⟩
  return .text (← writeJson style 1000 0 (args.headD .none))

end M

end Evalbox
