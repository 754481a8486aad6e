/-!
# Upper and lower case

The case of Latin, Greek and Cyrillic letters. `upper` and `lower` map one letter to a text, because
the upper case of one letter can be two.
-/

namespace Evalbox.Text

/-- The capital letters whose small letters lie a fixed distance behind them. -/
def caseBlocks : List (Nat × Nat × Nat) := [
  (0x41, 0x5A, 32), (0xC0, 0xD6, 32), (0xD8, 0xDE, 32), (0x391, 0x3A1, 32), (0x3A3, 0x3AB, 32),
  (0x410, 0x42F, 32), (0x400, 0x40F, 80), (0x531, 0x556, 48)]

/-- The ranges in which a small letter follows its capital letter; capitals have even numbers. -/
def casePairs : List (Nat × Nat) := [
  (0x100, 0x12F), (0x132, 0x137), (0x14A, 0x177), (0x1E00, 0x1E95), (0x460, 0x481), (0x48A, 0x4BF),
  (0x4D0, 0x52F)]

/-- The ranges in which a small letter follows its capital letter; capitals have odd numbers. -/
def oddCasePairs : List (Nat × Nat) := [(0x139, 0x148), (0x179, 0x17E)]

/-- The small letter of a capital letter. -/
def smallOf? (c : Char) : Option Char :=
  let n := c.toNat
  match caseBlocks.find? fun (a, b, _) => a ≤ n && n ≤ b with
  | some (_, _, d) => some (Char.ofNat (n + d))
  | none =>
    if casePairs.any (fun (a, b) => a ≤ n && n ≤ b) && n % 2 = 0 then some (Char.ofNat (n + 1))
    else if oddCasePairs.any (fun (a, b) => a ≤ n && n ≤ b) && n % 2 = 1 then some (Char.ofNat (n + 1))
    else if n = 0x178 then some 'ÿ'
    else none

/-- The capital letter of a small letter. -/
def capitalOf? (c : Char) : Option Char :=
  let n := c.toNat
  match caseBlocks.find? fun (a, b, d) => a + d ≤ n && n ≤ b + d with
  | some (_, _, d) => some (Char.ofNat (n - d))
  | none =>
    if casePairs.any (fun (a, b) => a ≤ n && n ≤ b) && n % 2 = 1 then some (Char.ofNat (n - 1))
    else if oddCasePairs.any (fun (a, b) => a ≤ n && n ≤ b) && n % 2 = 0 then some (Char.ofNat (n - 1))
    else if c = 'ÿ' then some (Char.ofNat 0x178)
    else if c = 'ς' then some 'Σ'
    else if c = 'µ' then some 'Μ'
    else none

def isCapital (c : Char) : Bool := (smallOf? c).isSome

def isSmall (c : Char) : Bool := (capitalOf? c).isSome || c = 'ß' || c = 'ª' || c = 'º'

/-- A letter in upper case. -/
def upper (c : Char) : List Char := if c = 'ß' then ['S', 'S'] else [(capitalOf? c).getD c]

/-- A letter in lower case. -/
def lower (c : Char) : Char := (smallOf? c).getD c

/-- A letter as the first one of a word. -/
def title (c : Char) : List Char := if c = 'ß' then ['S', 's'] else [(capitalOf? c).getD c]

end Evalbox.Text
