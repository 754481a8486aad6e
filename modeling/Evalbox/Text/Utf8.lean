/-!
# UTF-8

Characters as bytes, and back. `decode` names the first byte that cannot be decoded as the wire
format of error reports wants it: its position, how many bytes are affected, and the reason.
-/

namespace Evalbox.Text

/-- Bytes that cannot be decoded: from `start` up to `stop`, the first of them `byte`. -/
structure DecodeFault where
  byte : Nat
  start : Nat
  stop : Nat
  reason : String
  deriving DecidableEq, Repr, Inhabited

/-- A byte as two hexadecimal digits. -/
def hexByte (n : Nat) : String :=
  String.ofList [Nat.digitChar (n / 16 % 16), Nat.digitChar (n % 16)]

/-- The report of a fault. -/
def DecodeFault.message (f : DecodeFault) : String :=
  if f.stop = f.start + 1 then
    "'utf-8' codec can't decode byte 0x" ++ hexByte f.byte ++ " in position " ++ toString f.start ++
      ": " ++ f.reason
  else
    "'utf-8' codec can't decode bytes in position " ++ toString f.start ++ "-" ++
      toString (f.stop - 1) ++ ": " ++ f.reason

/-- The bytes of a character. -/
def encodeChar (c : Char) : List Nat :=
  let n := c.toNat
  if n < 0x80 then [n]
  else if n < 0x800 then [0xc0 + n / 64, 0x80 + n % 64]
  else if n < 0x10000 then [0xe0 + n / 4096, 0x80 + n / 64 % 64, 0x80 + n % 64]
  else [0xf0 + n / 262144, 0x80 + n / 4096 % 64, 0x80 + n / 64 % 64, 0x80 + n % 64]

/-- The bytes of a text. -/
def encode (text : List Char) : List UInt8 := (text.flatMap encodeChar).map Nat.toUInt8

/-- How a multi-byte character may go on after its first byte: the number of further bytes, and the
range of the first of them. -/
def shape? (b : Nat) : Option (Nat × Nat × Nat) :=
  if 0xc2 ≤ b ∧ b ≤ 0xdf then some (1, 0x80, 0xbf)
  else if b = 0xe0 then some (2, 0xa0, 0xbf)
  else if b = 0xed then some (2, 0x80, 0x9f)
  else if 0xe1 ≤ b ∧ b ≤ 0xef then some (2, 0x80, 0xbf)
  else if b = 0xf0 then some (3, 0x90, 0xbf)
  else if 0xf1 ≤ b ∧ b ≤ 0xf3 then some (3, 0x80, 0xbf)
  else if b = 0xf4 then some (3, 0x80, 0x8f)
  else none

/-- What the bytes behind a first byte amount to: the value and the rest, or how many of them belong
to the broken character and whether the text ended in it. -/
def continuation : Nat → Nat → Nat → Nat → Nat → List Nat → Except (Nat × Bool) (Nat × List Nat)
  | 0, value, _, _, _, rest => .ok (value, rest)
  | _ + 1, _, _, _, n, [] => .error (n, true)
  | k + 1, value, low, high, n, b :: rest =>
    if low ≤ b ∧ b ≤ high then continuation k (value * 64 + b % 64) 0x80 0xbf (n + 1) rest
    else .error (n, false)

/-- Decode a first byte with what follows it. -/
def decodeOne (pos b : Nat) (rest : List Nat) : Except DecodeFault (Char × List Nat) :=
  if b < 0x80 then .ok (Char.ofNat b, rest)
  else match shape? b with
    | none => .error ⟨b, pos, pos + 1, "invalid start byte"⟩
    | some (k, low, high) =>
      let first := if k = 1 then b % 32 else if k = 2 then b % 16 else b % 8
      match continuation k first low high 0 rest with
      | .ok (value, rest) => .ok (Char.ofNat value, rest)
      | .error (n, ended) =>
        .error ⟨b, pos, pos + 1 + n, if ended then "unexpected end of data" else "invalid continuation byte"⟩

/-- Decode bytes; `pos` counts them and `done` holds the characters so far, last first. -/
def decodeFrom : Nat → Nat → List Char → List Nat → Except DecodeFault (List Char)
  | 0, _, done, _ => .ok done.reverse
  | _ + 1, _, done, [] => .ok done.reverse
  | fuel + 1, pos, done, b :: rest =>
    match decodeOne pos b rest with
    | .ok (c, after) => decodeFrom fuel (pos + c.utf8Size) (c :: done) after
    | .error f => .error f

/-- The text of some bytes. -/
def decode (bytes : List UInt8) : Except DecodeFault (List Char) :=
  decodeFrom (bytes.length + 1) 0 [] (bytes.map UInt8.toNat)

end Evalbox.Text
