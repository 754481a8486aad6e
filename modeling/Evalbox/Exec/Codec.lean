import Evalbox.Exec.Iterate
import Evalbox.Text.Case

/-!
# Texts as bytes

Encoding and decoding by the name of a codec. What a codec cannot express is raised, left out or replaced,
as the name of the error handler asks.
-/

namespace Evalbox

/-- The codecs that texts are encoded by. -/
inductive Codec where
  | utf8
  | ascii
  | latin1
  deriving DecidableEq, Repr

namespace Codec

/-- The codec of a name; case and the choice of dash do not matter. -/
def ofName? (name : String) : Option Codec :=
  match String.ofList (name.toList.map fun c => if c = '_' || c = ' ' then '-' else Text.lower c) with
  | "utf-8" | "utf8" | "u8" | "utf" | "cp65001" => some utf8
  | "ascii" | "us-ascii" | "646" => some ascii
  | "latin-1" | "latin1" | "iso-8859-1" | "iso8859-1" | "8859" | "cp819" | "latin" | "l1" => some latin1
  | _ => none

/-- The number of characters that a codec has; all of them if there is none. -/
def size? : Codec → Option Nat
  | utf8 => none
  | ascii => some 128
  | latin1 => some 256

def name : Codec → String
  | utf8 => "utf-8"
  | ascii => "ascii"
  | latin1 => "latin-1"

end Codec

namespace M

/-- What an error handler puts in place of a character that a codec lacks, if it knows. -/
def inPlaceOf (handler : String) (c : Char) : Option String :=
  match handler with
  | "ignore" => some ""
  | "replace" => some "?"
  | "backslashreplace" => some (String.ofList (Text.escapeCode c))
  | "xmlcharrefreplace" => some ("&#" ++ toString c.toNat ++ ";")
  | _ => none

def unknownHandler {α : Type} (handler : String) : M α :=
  raise "LookupError" ("unknown error handler name '" ++ handler ++ "'")

/-- Encode a text. -/
def encoded (cs : List Char) (name handler : String) : M Value := do
  match Codec.ofName? name with
  | none => raise "LookupError" ("unknown encoding: " ++ name)
  | some codec =>
    match codec.size? with
    | none => return .bytes (Text.encode cs)
    | some size =>
      let fits (c : Char) : Bool := c.toNat < size
      let front := cs.takeWhile fits
      let bad := (cs.drop front.length).takeWhile (!fits ·)
      match bad, inPlaceOf handler 'a' with
      | [], _ => return .bytes (cs.map fun c => c.toNat.toUInt8)
      | _, some _ =>
        return .bytes (cs.flatMap fun c =>
          if fits c then [c.toNat.toUInt8] else Text.encode ((inPlaceOf handler c).getD "").toList)
      | _, none =>
        if handler ≠ "strict" then unknownHandler handler
        else
          raiseWith "UnicodeEncodeError" [.text codec.name, .text (String.ofList cs), .int front.length,
            .int (front.length + bad.length : Nat), .text ("ordinal not in range(" ++ toString size ++ ")")] []

/-- The text of some bytes, with `mark` in place of what cannot be decoded. The fuel bounds the faults. -/
def decodedWith (mark : List Char) : Nat → List UInt8 → List Char
  | 0, _ => []
  | fuel + 1, bs =>
    match Text.decode bs with
    | .ok cs => cs
    | .error f =>
      let front := match Text.decode (bs.take f.start) with
        | .ok cs => cs
        | .error _ => []
      front ++ mark ++ decodedWith mark fuel (bs.drop f.stop)

/-- Decode bytes. -/
def decoded (bs : List UInt8) (name handler : String) : M Value := do
  let text (cs : List Char) : M Value := return .text (String.ofList cs)
  let mark : Option (List Char) := match handler with
    | "ignore" => some []
    | "replace" => some ['\ufffd']
    | _ => none
  match Codec.ofName? name with
  | none => raise "LookupError" ("unknown encoding: " ++ name)
  | some .latin1 => text (bs.map fun b => Char.ofNat b.toNat)
  | some .utf8 =>
    match Text.decode bs, mark with
    | .ok cs, _ => text cs
    | .error _, some mark => text (decodedWith mark (bs.length + 1) bs)
    | .error f, none => if handler = "strict" then undecodable bs f else unknownHandler handler
  | some .ascii =>
    match bs.zipIdx.find? (fun (b, _) => b.toNat ≥ 128), mark with
    | none, _ => text (bs.map fun b => Char.ofNat b.toNat)
    | some _, some mark => text (bs.flatMap fun b => if b.toNat < 128 then [Char.ofNat b.toNat] else mark)
    | some (_, i), none =>
      if handler ≠ "strict" then unknownHandler handler
      else
        raiseWith "UnicodeDecodeError" [.text "ascii", .bytes bs, .int i, .int (i + 1 : Nat),
          .text "ordinal not in range(128)"] []

end M

end Evalbox
