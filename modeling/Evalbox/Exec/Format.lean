import Evalbox.Exec.Arithmetic
import Evalbox.Number.Arithmetic

/-!
# Formatted values

Two ways of writing values into text: format specifications, as they stand behind the colon of a
replacement field, and templates with percent signs.
-/

namespace Evalbox.M

/-- A format specification. -/
structure FormatSpec where
  fill : Char
  align : Option Char
  sign : Char
  alternate : Bool
  zero : Bool
  width : Nat
  group : Option Char
  precision : Option Nat
  kind : Option Char
  deriving Inhabited

def isAlign (c : Char) : Bool := c = '<' || c = '>' || c = '=' || c = '^'

/-- A number at the front. -/
def leadingNumber (cs : List Char) : Option Nat × List Char :=
  let ds := cs.takeWhile Char.isDigit
  (if ds.isEmpty then none else some (Number.ofDigits 10 (ds.map fun c => c.toNat - 48)),
   cs.dropWhile Char.isDigit)

/-- Read a format specification. -/
def FormatSpec.ofText? (cs : List Char) : Option FormatSpec :=
  let (fill, align, cs) : Option Char × Option Char × List Char := match cs with
    | f :: a :: rest =>
      if isAlign a then (some f, some a, rest)
      else if isAlign f then (none, some f, a :: rest) else (none, none, cs)
    | [a] => if isAlign a then (none, some a, []) else (none, none, cs)
    | [] => (none, none, [])
  let (sign, cs) : Char × List Char := match cs with
    | c :: rest => if c = '+' || c = '-' || c = ' ' then (c, rest) else ('-', cs)
    | [] => ('-', [])
  let (alternate, cs) : Bool × List Char := match cs with
    | '#' :: rest => (true, rest)
    | _ => (false, cs)
  let (zero, cs) : Bool × List Char := match cs with
    | '0' :: rest => if fill.isNone then (true, rest) else (false, cs)
    | _ => (false, cs)
  let (width, cs) := leadingNumber cs
  let (group, cs) : Option Char × List Char := match cs with
    | c :: rest => if c = ',' || c = '_' then (some c, rest) else (none, cs)
    | [] => (none, [])
  let (precision, cs, bad) : Option Nat × List Char × Bool := match cs with
    | '.' :: rest =>
      let (p, rest) := leadingNumber rest
      (p, rest, p.isNone)
    | _ => (none, cs, false)
  let spec (kind : Option Char) : FormatSpec :=
    ⟨fill.getD (if zero then '0' else ' '), if align.isNone && zero then some '=' else align, sign, alternate,
      zero, width.getD 0, group, precision, kind⟩
  if bad then none
  else match cs with
    | [] => some (spec none)
    | [c] => some (spec (some c))
    | _ => none

/-- Pad a text to a width. `front` stays in front of padding that is aligned by `=`. -/
def padded (s : FormatSpec) (default : Char) (front body : List Char) : List Char :=
  let n := s.width - (front.length + body.length)
  let pad (k : Nat) : List Char := List.replicate k s.fill
  match s.align.getD default with
  | '<' => front ++ body ++ pad n
  | '^' => pad (n / 2) ++ front ++ body ++ pad (n - n / 2)
  | '=' => front ++ pad n ++ body
  | _ => pad n ++ front ++ body

def signText (s : Char) (negative : Bool) : List Char :=
  if negative then ['-'] else if s = '-' then [] else [s]

def unknownCode {α : Type} (c : Char) (type : String) : M α :=
  valueError ("Unknown format code '" ++ String.singleton c ++ "' for object of type '" ++ type ++ "'")

def formatText (s : FormatSpec) (text : List Char) : M String :=
  if s.kind.isSome && s.kind ≠ some 's' then unknownCode (s.kind.getD ' ') "str"
  else if s.sign ≠ '-' then valueError "Sign not allowed in string format specifier"
  else if s.alternate then valueError "Alternate form (#) not allowed in string format specifier"
  else if s.align = some '=' && !s.zero then
    valueError "'=' alignment not allowed in string format specifier"
  else
    let body := match s.precision with
      | some p => text.take p
      | none => text
    let s := if s.align = some '=' then { s with align := some '<' } else s
    return String.ofList (padded s '<' [] body)

/-- The float styles by their letters, with whether letters are capital. -/
def floatStyle? (c : Char) : Option (Number.FloatStyle × Bool) :=
  [('f', (.fixed, false)), ('F', (.fixed, true)), ('e', (.scientific, false)), ('E', (.scientific, true)),
   ('g', (.general, false)), ('G', (.general, true)), ('%', (.fixed, false)), ('n', (.general, false))].lookup c

def formatFloat (s : FormatSpec) (x : Float) : M String := do
  let upperIf (u : Bool) (cs : List Char) : List Char := if u then cs.map Char.toUpper else cs
  let body (b : Number.Binary) : M (List Char) := do
    match s.kind with
    | none =>
      match s.precision with
      | none => return Number.shortestText b
      | some p =>
        let t := Number.generalText b p s.alternate
        return if t.contains '.' || t.contains 'e' then t else t ++ ".0".toList
    | some c =>
      match floatStyle? c with
      | some (style, upper) =>
        return upperIf upper (style.text b (s.precision.getD 6) s.alternate) ++ (if c = '%' then ['%'] else [])
      | none => unknownCode c "float"
  let y := if s.kind = some '%' then x * 100 else x
  let upper := match s.kind with
    | some c => c.isUpper
    | none => false
  match Number.FloatShape.ofFloat y with
  | .nan => return String.ofList (padded s '>' (signText s.sign false) (upperIf upper "nan".toList))
  | .infinite n => return String.ofList (padded s '>' (signText s.sign n) (upperIf upper "inf".toList))
  | .finite n b =>
    let t ← body b
    let whole := t.takeWhile Char.isDigit
    let t := match s.group with
      | some g => Number.grouped 3 g whole ++ t.drop whole.length
      | none => t
    return String.ofList (padded s '>' (signText s.sign n) t)

def formatInt (s : FormatSpec) (n : Int) (type : String) : M String := do
  let kind := s.kind.getD 'd'
  if (floatStyle? kind).isSome && kind ≠ 'n' then formatFloat s (← floatOf n)
  else if s.precision.isSome then valueError "Precision not allowed in integer format specifier"
  else
    let give (front ds : List Char) (size : Nat) : M String :=
      let ds := match s.group with
        | some g => Number.grouped size g ds
        | none => ds
      return String.ofList (padded s '>' (signText s.sign (n < 0) ++ (if s.alternate then front else [])) ds)
    match kind with
    | 'd' | 'n' => give [] (Number.digitsOf n.natAbs) 3
    | 'b' => give "0b".toList (Number.baseDigits 2 n.natAbs false) 4
    | 'o' => give "0o".toList (Number.baseDigits 8 n.natAbs false) 4
    | 'x' => give "0x".toList (Number.baseDigits 16 n.natAbs false) 4
    | 'X' => give "0X".toList (Number.baseDigits 16 n.natAbs true) 4
    | 'c' =>
      if s.sign ≠ '-' then valueError "Sign not allowed with integer format specifier 'c'"
      else if 0 ≤ n && n < 0x110000 then
        return String.ofList (padded s '<' [] [Char.ofNat n.toNat])
      else raise "OverflowError" "%c arg not in range(0x110000)"
    | c => unknownCode c type

/-- A value by a format specification. -/
def formatValue (v : Value) (spec : String) : M String := do
  match ← callUser v "__format__" [.text spec] with
  | some (.text s) => return s
  | some w => typeError ("__format__ must return a str, not " ++ (← typeName w))
  | Option.none =>
    if spec = "" then textTask v
    else
      match v with
      | .text _ | .int _ | .bool _ | .float _ =>
        match FormatSpec.ofText? spec.toList with
        | Option.none => valueError "Invalid format specifier"
        | some s =>
          match v with
          | .text t => formatText s t.toList
          | .float x => formatFloat s x
          | .int n => formatInt s n "int"
          | .bool b => formatInt s (if b then 1 else 0) "bool"
          | _ => return ""
      | _ => typeError ("unsupported format string passed to " ++ (← typeName v) ++ ".__format__")

/-- A directive of a template. -/
structure Directive where
  key : Option String
  left : Bool
  plus : Bool
  blank : Bool
  alternate : Bool
  zero : Bool
  deriving Inhabited

/-- What a template still has to write: the positional arguments that are left, or the mapping. -/
structure TemplateArgs where
  rest : List Value
  mapping : Option Value
  single : Bool

def readFlags (d : Directive) : List Char → Directive × List Char
  | '-' :: rest => readFlags { d with left := true } rest
  | '+' :: rest => readFlags { d with plus := true } rest
  | ' ' :: rest => readFlags { d with blank := true } rest
  | '#' :: rest => readFlags { d with alternate := true } rest
  | '0' :: rest => readFlags { d with zero := true } rest
  | cs => (d, cs)

def nextArg (a : TemplateArgs) : M (Value × TemplateArgs) :=
  match a.rest with
  | v :: rest => return (v, { a with rest })
  | [] => typeError "not enough arguments for format string"

/-- A width or precision, which a star takes from the arguments. -/
def starOrNumber (a : TemplateArgs) (cs : List Char) : M (Option Int × TemplateArgs × List Char) := do
  match cs with
  | '*' :: rest => do
    let (v, a) ← nextArg a
    match v.int? with
    | some n => return (some n, a, rest)
    | none => typeError "* wants int"
  | cs =>
    let (n, rest) := leadingNumber cs
    return (n.map fun (k : Nat) => (k : Int), a, rest)

def refuseReal {α : Type} (c : Char) (v : Value) (what : String) : M α := do
  typeError ("%" ++ String.singleton c ++ " format: " ++ what ++ ", not " ++ (← typeName v))

/-- A number by a directive. -/
def numberDirective (d : Directive) (width : Nat) (precision : Option Nat) (c : Char) (v : Value) :
    M (List Char) := do
  let sign := if d.plus then '+' else if d.blank then ' ' else '-'
  let spec : FormatSpec :=
    ⟨if d.zero && !d.left then '0' else ' ', some (if d.left then '<' else if d.zero then '=' else '>'), sign,
      d.alternate, d.zero, width, none, precision, some c⟩
  let whole (n : Int) (base : Nat) (front : List Char) (upper : Bool) : List Char :=
    let ds := Number.zeroPadded (precision.getD 0) (Number.baseDigits base n.natAbs upper)
    padded spec '>' (signText sign (n < 0) ++ (if d.alternate then front else [])) ds
  match c with
  | 'd' | 'i' | 'u' =>
    match v, v.int? with
    | _, some n => return whole n 10 [] false
    | .float x, _ =>
      match Number.truncate? x with
      | some n => return whole n 10 [] false
      | none =>
        if x.isNaN then valueError "cannot convert float NaN to integer"
        else raise "OverflowError" "cannot convert float infinity to integer"
    | _, _ => refuseReal c v "a real number is required"
  | 'o' => match v.int? with
    | some n => return whole n 8 "0o".toList false
    | none => refuseReal c v "an integer is required"
  | 'x' => match v.int? with
    | some n => return whole n 16 "0x".toList false
    | none => refuseReal c v "an integer is required"
  | 'X' => match v.int? with
    | some n => return whole n 16 "0X".toList true
    | none => refuseReal c v "an integer is required"
  | _ =>
    let x ← match v, v.int? with
      | _, some n => floatOf n
      | .float x, _ => pure x
      | _, _ => typeError ("must be real number, not " ++ (← typeName v))
    return (← formatFloat { spec with precision := some (precision.getD 6) } x).toList

/-- Write one directive, which begins behind its percent sign. -/
def directive (bytes : Bool) (index : Nat) (a : TemplateArgs) (cs : List Char) :
    M (List Char × TemplateArgs × List Char) := do
  let (key, cs) ← match cs with
    | '(' :: rest =>
      let name := rest.takeWhile (· ≠ ')')
      match rest.dropWhile (· ≠ ')') with
      | _ :: after => pure (some (String.ofList name), after)
      | [] => valueError "incomplete format key"
    | cs => pure (Option.none, cs)
  let (d, cs) := readFlags { (default : Directive) with key } cs
  let (width, a, cs) ← starOrNumber a cs
  let d := match width with
    | some n => if n < 0 then { d with left := true } else d
    | none => d
  let width := (width.getD 0).natAbs
  let (precision, a, cs) ← match cs with
    | '.' :: rest => do
      let (p, a, rest) ← starOrNumber a rest
      pure (some (p.getD 0).toNat, a, rest)
    | cs => pure (Option.none, a, cs)
  let cs := match cs with
    | c :: rest => if c = 'l' || c = 'h' || c = 'L' then rest else cs
    | [] => []
  match cs with
  | [] => valueError "incomplete format"
  | '%' :: rest => return (['%'], a, rest)
  | c :: rest => do
    let (v, a) ← match key with
      | some k =>
        match a.mapping with
        | some m => do
          let v ← valueOf (.apply (.native "getitem") [m, .text k] [])
          pure (v, { a with rest := [] })
        | Option.none => typeError "format requires a mapping"
      | Option.none => nextArg a
    let cut (s : List Char) : List Char :=
      let s := match precision with
        | some p => s.take p
        | none => s
      let pad := List.replicate (width - s.length) ' '
      if d.left then s ++ pad else pad ++ s
    let bytesOf (v : Value) : M (List Char) := do
      match v with
      | .bytes bs => return bs.map fun b => Char.ofNat b.toNat
      | v => typeError ("%b requires a bytes-like object, or an object that implements __bytes__, not '" ++
          (← typeName v) ++ "'")
    match c with
    | 's' => do
      let s ← if bytes then bytesOf v else (do pure (← textTask v).toList)
      return (cut s, a, rest)
    | 'b' =>
      if bytes then return (cut (← bytesOf v), a, rest)
      else valueError ("unsupported format character 'b' (0x62) at index " ++ toString index)
    | 'r' => do
      let s ← if bytes then asciiText v else shownTask v
      return (cut s.toList, a, rest)
    | 'a' => do return (cut (← asciiText v).toList, a, rest)
    | 'c' =>
      match v, v.int? with
      | _, some n =>
        if 0 ≤ n && n < 0x110000 then return (cut [Char.ofNat n.toNat], a, rest)
        else raise "OverflowError" "%c arg not in range(0x110000)"
      | .text s, _ =>
        if s.length = 1 then return (cut s.toList, a, rest) else typeError "%c requires int or char"
      | _, _ => typeError "%c requires int or char"
    | c =>
      if "diuoxXeEfFgG".toList.contains c then
        return (← numberDirective d width precision c v, a, rest)
      else
        valueError ("unsupported format character '" ++ String.singleton c ++ "' (0x" ++
          String.ofList (Nat.toDigits 16 c.toNat) ++ ") at index " ++ toString index)

/-- Write a template. The fuel bounds its directives. -/
def template (bytes : Bool) (total : Nat) : Nat → TemplateArgs → List Char → List Char → M (List Char)
  | 0, _, done, _ => return done.reverse
  | fuel + 1, a, done, cs => do
    match cs with
    | [] =>
      if a.rest.isEmpty || a.mapping.isSome then return done.reverse
      else if bytes then typeError "not all arguments converted during bytes formatting"
      else typeError "not all arguments converted during string formatting"
    | '%' :: rest => do
      let plain := (rest.dropWhile fun c => c ≠ '%' && !c.isAlpha).head?
      let index := total - rest.length + (rest.takeWhile fun c => some c ≠ plain).length
      let (s, a, rest) ← directive bytes index a rest
      template bytes total fuel a (s.reverse ++ done) rest
    | c :: rest => template bytes total fuel a (c :: done) rest

/-- A text or bytes with percent signs, applied to arguments. -/
def percent (bytes : Bool) (text : List Char) (v : Value) : M (List Char) := do
  let mapping ← match v with
    | .ref r => do
      match ← obj r with
      | .dict _ => pure (some v)
      | .list _ => pure (some v)
      | .instanceOf c _ => pure (if ((← heap).classAttr c "__getitem__").isSome then some v else Option.none)
      | _ => pure Option.none
    | _ => pure Option.none
  let a : TemplateArgs := match v with
    | .tuple xs => ⟨xs, Option.none, false⟩
    | v => ⟨[v], mapping, true⟩
  template bytes text.length (text.length + 1) a [] text

/-- A binary operation, where a percent sign behind text or bytes makes a template of it. -/
def binary (symbol : String) (op : Lang.BinaryOp) (a b : Value) : M Value := do
  match op, a with
  | .mod, .text s => return .text (String.ofList (← percent false s.toList b))
  | .mod, .bytes bs => do
    let cs ← percent true (bs.map fun x => Char.ofNat x.toNat) b
    return .bytes (cs.map fun c => c.toNat.toUInt8)
  | _, _ => binaryOf symbol op a b

end Evalbox.M
