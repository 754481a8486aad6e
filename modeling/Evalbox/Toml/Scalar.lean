import Evalbox.Toml.Stop

/-!
# Strings, numbers and dates of documents

Readers for the values that hold no others, for keys, and for what lies between values.
-/

namespace Evalbox.Toml

def isSpace (c : Char) : Bool := c = ' ' || c = '\t'
def isSpaceOrLine (c : Char) : Bool := isSpace c || c = '\n'
def isControl (c : Char) : Bool := c.toNat < 32 || c.toNat = 127

/-- Characters that may not stand in a string or comment of one line. -/
def isIllegal (c : Char) : Bool := isControl c && c ≠ '\t'

/-- Characters that may not stand in a string of several lines. -/
def isIllegalInLines (c : Char) : Bool := isIllegal c && c ≠ '\n'

def isBare (c : Char) : Bool := c.isAlphanum || c = '-' || c = '_'

def skipSpace (cs : List Char) : List Char := cs.dropWhile isSpace

/-- A text that stands at the front is taken away. -/
def strip? (front cs : List Char) : Option (List Char) :=
  if front.isPrefixOf cs then some (cs.drop front.length) else none

/-- Split in front of the first place where `close` stands. -/
def splitAtText (close : List Char) : List Char → Option (List Char × List Char)
  | [] => if close.isEmpty then some ([], []) else none
  | c :: cs =>
    if close.isPrefixOf (c :: cs) then some ([], c :: cs)
    else (splitAtText close cs).map fun (a, b) => (c :: a, b)

/-- Stop at the first character of `body` that is illegal; `rest` follows the body. -/
def checked (illegal : Char → Bool) (body rest : List Char) : Except Stop Unit :=
  match body.dropWhile (!illegal ·) with
  | [] => .ok ()
  | c :: more => stop (c :: more ++ rest) (.badCharacter c)

/-- Skip a comment up to the end of its line. -/
def skipComment (cs : List Char) : Except Stop (List Char) :=
  match cs with
  | '#' :: rest => do
    let body := rest.takeWhile (· ≠ '\n')
    let after := rest.dropWhile (· ≠ '\n')
    checked isIllegal body after
    .ok after
  | _ => .ok cs

/-- A string up to `close`, taken as it is. -/
def literalUntil (close : String) (illegal : Char → Bool) : Reader (List Char) := fun cs =>
  match splitAtText close.toList cs with
  | none => stop [] (.expected close)
  | some (body, rest) => do
    checked illegal body rest
    .ok (body, rest.drop close.length)

/-- A character given by `n` hexadecimal digits. -/
def hexCharacter (n : Nat) : Reader (List Char) := fun cs =>
  let ds := cs.take n
  match ds.mapM (Text.baseDigit? 16) with
  | some vs =>
    if ds.length ≠ n then stop cs .hex
    else
      let v := Number.ofDigits 16 vs
      if v < 0xd800 || (0xdfff < v && v < 0x110000) then .ok ([Char.ofNat v], cs.drop n)
      else stop (cs.drop n) .scalar
  | none => stop cs .hex

/-- What stands for the character behind a backslash. -/
def plainEscapes : List (Char × Char) :=
  [('b', '\x08'), ('t', '\t'), ('n', '\n'), ('f', '\x0c'), ('r', '\r'), ('"', '"'), ('\\', '\\')]

/-- An escape behind its backslash. In a string of several lines a backslash at the end of a line joins
it with the next text. -/
def escape (lines : Bool) : Reader (List Char) := fun cs =>
  match cs with
  | [] => stop [] .escape
  | c :: rest =>
    if lines && c = '\n' then .ok ([], rest.dropWhile isSpaceOrLine)
    else if lines && isSpace c then
      match skipSpace rest with
      | [] => .ok ([], [])
      | '\n' :: more => .ok ([], more.dropWhile isSpaceOrLine)
      | more => stop more .escape
    else if c = 'u' then hexCharacter 4 rest
    else if c = 'U' then hexCharacter 8 rest
    else match plainEscapes.lookup c with
      | some v => .ok ([v], rest)
      | none => stop rest .escape

/-- A string with escapes, behind its opening quotes. The fuel counts characters. -/
def basic (lines : Bool) : Nat → List Char → Reader (List Char)
  | 0, _ => fun cs => stop cs .unterminated
  | fuel + 1, read => fun cs =>
    match cs with
    | [] => stop [] .unterminated
    | '"' :: rest =>
      if !lines then .ok (read.reverse, rest)
      else match strip? "\"\"".toList rest with
        | some more => .ok (read.reverse, more)
        | none => basic lines fuel ('"' :: read) rest
    | '\\' :: rest => do
      let (v, more) ← escape lines rest
      basic lines fuel (v.reverse ++ read) more
    | c :: rest =>
      if (if lines then isIllegalInLines c else isIllegal c) then stop cs (.illegal c)
      else basic lines fuel (c :: read) rest

/-- Up to two quotes directly behind a closing delimiter belong to the string. -/
def extraQuotes (q : Char) (body rest : List Char) : List Char × List Char :=
  match rest with
  | a :: b :: more =>
    if a = q then if b = q then (body ++ [q, q], more) else (body ++ [q], b :: more) else (body, rest)
  | [a] => if a = q then (body ++ [q], []) else (body, rest)
  | [] => (body, [])

/-- A line feed directly behind the opening delimiter is dropped. -/
def dropLine : List Char → List Char
  | '\n' :: rest => rest
  | cs => cs

/-- A string, behind nothing. -/
def string? (cs : List Char) : Option (Except Stop (List Char × List Char)) :=
  match cs with
  | '"' :: '"' :: '"' :: rest => some do
    let (body, rest) ← basic true (cs.length + 1) [] (dropLine rest)
    .ok (extraQuotes '"' body rest)
  | '"' :: rest => some (basic false (cs.length + 1) [] rest)
  | '\'' :: '\'' :: '\'' :: rest => some do
    let (body, rest) ← literalUntil "'''" isIllegalInLines (dropLine rest)
    .ok (extraQuotes '\'' body rest)
  | '\'' :: rest => some (literalUntil "'" isIllegal rest)
  | _ => none

/-- One part of a key. Strings of several lines are none. -/
def keyPart : Reader String := fun cs =>
  match cs with
  | '"' :: rest => (basic false (cs.length + 1) [] rest).map fun (s, r) => (String.ofList s, r)
  | '\'' :: rest => (literalUntil "'" isIllegal rest).map fun (s, r) => (String.ofList s, r)
  | c :: _ =>
    if isBare c then .ok (String.ofList (cs.takeWhile isBare), cs.dropWhile isBare)
    else stop cs .keyStart
  | [] => stop [] .keyStart

/-- A key: parts with points between them. -/
def key : Nat → Reader Key
  | 0 => fun cs => stop cs .keyStart
  | fuel + 1 => fun cs => do
    let (part, rest) ← keyPart cs
    match skipSpace rest with
    | '.' :: more => do
      let (parts, rest) ← key fuel (skipSpace more)
      .ok (part :: parts, rest)
    | rest => .ok ([part], rest)

/-- Exactly the digits that a field of a date has. -/
def field? (width low high : Nat) (cs : List Char) : Option (Nat × List Char) := do
  let ds := cs.take width
  let vs ← ds.mapM (Text.baseDigit? 10)
  let v := Number.ofDigits 10 vs
  if ds.length = width && low ≤ v && v ≤ high then some (v, cs.drop width) else none

/-- A time of day. Digits beyond the sixth of a fraction are dropped. -/
def clock? (cs : List Char) : Option (Clock × List Char) := do
  let (h, cs) ← field? 2 0 23 cs
  let (m, cs) ← field? 2 0 59 (← strip? [':'] cs)
  let (s, cs) ← field? 2 0 59 (← strip? [':'] cs)
  match cs with
  | '.' :: rest =>
    let ds := rest.takeWhile Char.isDigit
    if ds.isEmpty then some (⟨h, m, s, 0⟩, cs)
    else
      let micro := (ds.take 6 ++ List.replicate (6 - ds.length) '0').map fun c => c.toNat - 48
      some (⟨h, m, s, Number.ofDigits 10 micro⟩, rest.dropWhile Char.isDigit)
  | _ => some (⟨h, m, s, 0⟩, cs)

/-- The offset of a moment from universal time, in minutes. -/
def offset? (cs : List Char) : Option (Int × List Char) :=
  match cs with
  | c :: rest =>
    if c = 'Z' || c = 'z' then some (0, rest)
    else if c = '+' || c = '-' then do
      let (h, cs) ← field? 2 0 23 rest
      let (m, cs) ← field? 2 0 59 (← strip? [':'] cs)
      let n : Int := h * 60 + m
      some (if c = '-' then -n else n, cs)
    else none
  | [] => none

def daysInMonth (year month : Nat) : Nat :=
  if month = 2 then
    if year % 4 = 0 && (year % 100 ≠ 0 || year % 400 = 0) then 29 else 28
  else if month = 4 || month = 6 || month = 9 || month = 11 then 30 else 31

/-- A date or a moment. Stops at a day that does not exist. -/
def dated? (cs : List Char) : Option (Except Stop (Moment × List Char)) := do
  let (y, r) ← field? 4 0 9999 cs
  let (m, r) ← field? 2 1 12 (← strip? ['-'] r)
  let (d, r) ← field? 2 1 31 (← strip? ['-'] r)
  let ok := y ≠ 0 && d ≤ daysInMonth y m
  let (found, rest) : Moment × List Char := match r with
    | c :: more =>
      if c = 'T' || c = 't' || c = ' ' then
        match clock? more with
        | some (t, rest) =>
          match offset? rest with
          | some (o, rest) => (.dateTime ⟨y, m, d⟩ t (some o), rest)
          | none => (.dateTime ⟨y, m, d⟩ t none, rest)
        | none => (.date ⟨y, m, d⟩, r)
      else (.date ⟨y, m, d⟩, r)
    | [] => (.date ⟨y, m, d⟩, r)
  some (if ok then .ok (found, rest) else stop cs .moment)

/-- A digit and more digits, single underscores between them. -/
def run? (base : Nat) (cs : List Char) : Option (List Nat × List Char) :=
  match Number.readDigits (Text.baseDigit? base) cs with
  | ([], _) => none
  | found => some found

/-- An integer in a base other than ten. -/
def based? (cs : List Char) : Option (Datum × List Char) :=
  match cs with
  | '0' :: c :: rest =>
    let base := if c = 'x' then 16 else if c = 'b' then 2 else if c = 'o' then 8 else 0
    if base = 0 then none
    else (run? base rest).map fun (ds, rest) => (.int (Number.ofDigits base ds), rest)
  | _ => none

/-- Skip a run of digits, or stay at `back` if there is none. -/
def skipRun (back cs : List Char) : List Char :=
  match run? 10 cs with
  | some (_, rest) => rest
  | none => back

/-- The fraction and the exponent of a float, each with its mark, as far as they are there. -/
def floatTail (cs : List Char) : List Char :=
  let rest := match cs with
    | '.' :: more => skipRun cs more
    | _ => cs
  match rest with
  | c :: more =>
    if c = 'e' || c = 'E' then
      match more with
      | '+' :: ds | '-' :: ds => skipRun rest ds
      | ds => skipRun rest ds
    else rest
  | [] => rest

/-- A decimal number. -/
def decimal? (cs : List Char) : Option (Except Stop (Datum × List Char)) :=
  let (negative, body) := Number.readSign cs
  let whole : Option (List Nat × List Char) := match body with
    | '0' :: rest => some ([0], rest)
    | _ => run? 10 body
  whole.map fun (ds, rest) =>
    let after := floatTail rest
    if after.length = rest.length then
      if ds.length > Number.digitLimit then stop cs (.tooLong ds.length)
      else
        let n : Int := Number.ofDigits 10 ds
        .ok (.int (if negative then -n else n), rest)
    else
      let text := cs.take (cs.length - after.length)
      .ok (.float ((Number.readFloat? text).getD 0), after)

/-- The floats that have names. -/
def named? (cs : List Char) : Option (Datum × List Char) :=
  let (_, body) := Number.readSign cs
  match strip? "inf".toList body, strip? "nan".toList body with
  | some rest, _ | _, some rest =>
    (Number.readFloat? (cs.take (cs.length - rest.length))).map fun x => (.float x, rest)
  | none, none => none

end Evalbox.Toml
