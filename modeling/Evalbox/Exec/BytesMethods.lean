import Evalbox.Exec.TextMethods

/-!
# Methods of bytes

Bytes are searched, cut and padded as texts are: each stands for its ASCII character, and those that are
no character of ASCII, or no blank among bytes, stand for characters without any property. What a method of
texts answers is turned back into bytes.
-/

namespace Evalbox

/-- The character that stands for a byte. -/
def charOfByte (b : UInt8) : Char :=
  if b ≥ 128 || (28 ≤ b && b < 32) then Char.ofNat (0xE000 + b.toNat) else Char.ofNat b.toNat

/-- The byte that a character stands for. -/
def byteOfChar (c : Char) : UInt8 := c.toNat.toUInt8

theorem byteOfChar_charOfByte (b : UInt8) : byteOfChar (charOfByte b) = b := by
  have h : ∀ n : Fin 256, byteOfChar (charOfByte n.val.toUInt8) = n.val.toUInt8 := by decide +kernel
  simpa using h ⟨b.toNat, b.toNat_lt⟩

namespace M

def bytesOf (cs : List Char) : Value := .bytes (cs.map byteOfChar)

def bytesRequired {α : Type} (v : Value) : M α := do
  typeError ("a bytes-like object is required, not '" ++ (← typeName v) ++ "'")

/-- An argument as bytes, in the characters that stand for them. -/
def needBytes (v : Value) : M (List Char) := do
  match v with
  | .bytes bs => return bs.map charOfByte
  | _ => bytesRequired v

/-- The bytes or the single byte that are searched for. -/
def needle (v : Value) : M (List Char) := do
  match v with
  | .bytes bs => return bs.map charOfByte
  | _ =>
    match v.int? with
    | some n =>
      if 0 ≤ n && n < 256 then return [charOfByte n.toNat.toUInt8] else valueError "byte must be in range(0, 256)"
    | none => typeError ("argument should be integer or bytes-like object, not '" ++ (← typeName v) ++ "'")

/-- An argument of a method of bytes as one of the method of texts. -/
def bytesArgument (name : String) (i : Nat) (v : Value) : M Value := do
  let text (cs : List Char) : Value := .text (String.ofList cs)
  match name, i with
  | "find", 0 | "rfind", 0 | "index", 0 | "rindex", 0 | "count", 0 => return text (← needle v)
  | "startswith", 0 | "endswith", 0 =>
    match v with
    | .bytes _ => return text (← needBytes v)
    | .tuple vs => return .tuple (← vs.mapM fun v => do return text (← needBytes v))
    | _ => typeError (name ++ " first arg must be bytes or a tuple of bytes, not " ++ (← typeName v))
  | "strip", 0 | "lstrip", 0 | "rstrip", 0 | "split", 0 | "rsplit", 0 =>
    if v matches .none then return v else return text (← needBytes v)
  | "replace", 0 | "replace", 1 | "partition", 0 | "rpartition", 0 | "removeprefix", 0 | "removesuffix", 0 =>
    return text (← needBytes v)
  | "center", 1 | "ljust", 1 | "rjust", 1 =>
    match v with
    | .bytes [b] => return text [charOfByte b]
    | _ => typeError (name ++ "() argument 2 must be a byte string of length 1, not " ++ (← typeName v))
  | _, _ => return v

/-- The answer of a method of texts as one of the method of bytes. -/
def bytesAnswer (v : Value) : M Value := do
  let back (v : Value) : Value := match v with
    | .text s => bytesOf s.toList
    | v => v
  match v with
  | .text _ => return back v
  | .tuple xs => return .tuple (xs.map back)
  | .ref r =>
    match ← obj r with
    | .list xs => do
      put r (.list (xs.map back))
      return v
    | _ => return v
  | v => return v

/-- The digits of bytes, in groups counted from the end if there is a separator. -/
def hexDigits (bs : List UInt8) (sep : Option Char) (group : Int) : List Char :=
  let digits (b : UInt8) : List Char := Text.hex 2 b.toNat
  match sep with
  | none => bs.flatMap digits
  | some c =>
    let n := group.natAbs
    let cut (i : Nat) : Bool := n ≠ 0 && i ≠ 0 && (if group > 0 then (bs.length - i) % n = 0 else i % n = 0)
    bs.zipIdx.flatMap fun (b, i) => (if cut i then [c] else []) ++ digits b

/-- Read pairs of hexadecimal digits with blanks between them; else the place that is wrong. -/
def readHex : Nat → List Char → Except Nat (List UInt8)
  | _, [] => .ok []
  | i, [c] => if Text.isBlank c then .ok [] else .error (if (Text.baseDigit? 16 c).isSome then i + 1 else i)
  | i, c :: d :: cs =>
    if Text.isBlank c then readHex (i + 1) (d :: cs)
    else match Text.baseDigit? 16 c, Text.baseDigit? 16 d with
      | some a, some b => (readHex (i + 2) cs).map ((16 * a + b).toUInt8 :: ·)
      | none, _ => .error i
      | some _, none => .error (i + 1)

/-- A method of bytes. That it gets the right number of arguments is checked before. -/
def bytesMethod (bs : List UInt8) (name : String) (args : List Value) (kwargs : Names) : M Value := do
  let chars := bs.map charOfByte
  let first := args.headD .none
  match name with
  | "decode" => do
    let (codec, handler) ← codecOf name args kwargs
    decoded bs codec handler
  | "hex" => do
    let given ← takeArguments name ["sep", "bytes_per_sep"] args kwargs
    let sep ← match argumentAt given 0 with
      | none => pure none
      | some (.text s) => if s.length = 1 then pure s.toList.head? else valueError "sep must be length 1."
      | some (.bytes [b]) => pure (some (Char.ofNat b.toNat))
      | some (.bytes _) => valueError "sep must be length 1."
      | some _ => typeError "sep must be str or bytes."
    let group ← match argumentAt given 1 with
      | some v => needInt v
      | none => pure 1
    textValue (hexDigits bs sep group)
  | "fromhex" => do
    match readHex 0 (← needText "fromhex() argument " first) with
    | .ok bs => return .bytes bs
    | .error i => valueError ("non-hexadecimal number found in fromhex() arg at position " ++ toString i)
  | "maketrans" => do
    let old ← needBytes first
    let new ← needBytes ((args[1]?).getD .none)
    if old.length ≠ new.length then valueError "maketrans arguments must have same length"
    else
      let pairs := (old.zip new).reverse
      return bytesOf ((List.range 256).map fun n =>
        let c := charOfByte n.toUInt8
        (pairs.lookup c).getD c)
  | "translate" => do
    let given ← takeArguments name ["table", "delete"] args kwargs
    let dropped ← match argumentAt given 1 with
      | some v => needBytes v
      | none => pure []
    let kept := chars.filter (!dropped.contains ·)
    match argumentAt given 0 with
    | none | some .none => return bytesOf kept
    | some v => do
      let table ← needBytes v
      if table.length ≠ 256 then valueError "translation table must be 256 characters long"
      else return bytesOf (kept.map fun c => (table[(byteOfChar c).toNat]?).getD c)
  | "join" => do
    let items ← joinable first
    let parts ← items.zipIdx.mapM fun (v, i) => match v with
      | .bytes b => return b.map charOfByte
      | _ => do typeError ("sequence item " ++ toString i ++ ": expected a bytes-like object, " ++ (← typeName v) ++ " found")
    return bytesOf (chars.intercalate parts)
  | "isascii" => return .bool (bs.all (· < 128))
  | "splitlines" => do
    let given ← takeArguments name ["keepends"] args kwargs
    let keep ← match argumentAt given 0 with
      | some v => do pure (decide ((← needInt v) ≠ 0))
      | none => pure false
    make (.list ((Text.sourceLines chars).map fun l =>
      bytesOf (if keep then l else Text.dropTerminator Text.isSourceBreak l)).toArray)
  | _ => do
    let args ← args.zipIdx.mapM fun (v, i) => bytesArgument name i v
    let kwargs ← kwargs.mapM fun (n, v) => do return (n, ← if n = "sep" then bytesArgument name 0 v else pure v)
    match ← attempt (textMethod chars name args kwargs) with
    | .ok v => bytesAnswer v
    | .error e =>
      if (name = "index" || name = "rindex") && (← isKind e "ValueError") then valueError "subsection not found"
      else fail e

end M

end Evalbox
