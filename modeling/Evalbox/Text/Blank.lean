/-!
# White space

`isBlank` is the Unicode property by which text is trimmed: the characters of bidirectional type
WS, B or S together with the space separators. It is wider than core's `Char.isWhitespace`.
-/

namespace Evalbox.Text

/-- Characters that trimming removes and that a blank text consists of. -/
def isBlank (c : Char) : Bool :=
  let n := c.toNat
  (9 ≤ n && n ≤ 13) || (28 ≤ n && n ≤ 32) || n = 0x85 || n = 0xa0 || n = 0x1680 ||
  (0x2000 ≤ n && n ≤ 0x200a) || n = 0x2028 || n = 0x2029 || n = 0x202f || n = 0x205f || n = 0x3000

/-- Remove blanks from the front. -/
def trimLeft (text : List Char) : List Char := text.dropWhile isBlank

/-- Remove blanks from the end. -/
def trimRight (text : List Char) : List Char := (text.reverse.dropWhile isBlank).reverse

/-- Remove blanks from both ends. -/
def trim (text : List Char) : List Char := trimRight (trimLeft text)

theorem isBlank_of_isWhitespace {c : Char} (h : c.isWhitespace = true) : isBlank c = true := by
  simp only [Char.isWhitespace, Bool.or_eq_true, decide_eq_true_eq] at h
  rcases h with ((rfl | rfl) | rfl) | rfl <;> decide

end Evalbox.Text
