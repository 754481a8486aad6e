import Evalbox.Text.Blank
import Evalbox.Text.Case

/-!
# Searching and cutting text

Where a text occurs in another one, what is left when a text is cut there, and what it becomes when the
places are filled with something else. Texts are lists of characters. `occurrences` counts without
overlaps, from the front.

What is found stands where it was found (`prefix_of_findFirst`), and the pieces of a text with the separator
between them are the text again (`intercalate_cutAt`).
-/

namespace Evalbox.Text

/-- The first place at which a text occurs, counted from `at_`. -/
def findFirst (part : List Char) : Nat → List Char → Option Nat
  | at_, [] => if part.isEmpty then some at_ else none
  | at_, c :: cs => if part.isPrefixOf (c :: cs) then some at_ else findFirst part (at_ + 1) cs

theorem prefix_of_findFirst {part cs : List Char} {k i : Nat} (h : findFirst part k cs = some i) :
    k ≤ i ∧ part <+: cs.drop (i - k) := by
  induction cs generalizing k with
  | nil =>
    simp only [findFirst] at h
    split at h
    · obtain rfl := Option.some.inj h
      simp_all
    · simp at h
  | cons c cs ih =>
    simp only [findFirst] at h
    split at h
    · obtain rfl := Option.some.inj h
      simp_all
    · obtain ⟨hk, hp⟩ := ih h
      have step : i - k = (i - (k + 1)) + 1 := by omega
      exact ⟨by omega, by rw [step, List.drop_succ_cons]; exact hp⟩

/-- The last place at which a text occurs. -/
def findLast (part text : List Char) : Option Nat :=
  (findFirst part.reverse 0 text.reverse).map fun i => text.length - i - part.length

/-- Cut a text at every place where `sep` occurs, at most `limit` times. The fuel bounds the pieces. -/
def cutAt (sep : List Char) : Nat → Option Nat → List Char → List (List Char)
  | 0, _, cs => [cs]
  | _, some 0, cs => [cs]
  | fuel + 1, limit, cs =>
    match findFirst sep 0 cs with
    | none => [cs]
    | some i => cs.take i :: cutAt sep fuel (limit.map (· - 1)) (cs.drop (i + sep.length))

theorem cutAt_ne_nil (sep : List Char) (fuel : Nat) (limit : Option Nat) (cs : List Char) :
    cutAt sep fuel limit cs ≠ [] := by
  unfold cutAt
  split <;> try simp
  split <;> simp

theorem intercalate_cutAt (sep : List Char) (fuel : Nat) (limit : Option Nat) (cs : List Char) :
    sep.intercalate (cutAt sep fuel limit cs) = cs := by
  fun_induction cutAt sep fuel limit cs with
  | case1 => simp
  | case2 => simp
  | case3 => simp
  | case4 fuel limit cs _ i h ih =>
    obtain ⟨_, rest, hr⟩ := prefix_of_findFirst h
    rw [List.intercalate_cons_of_ne_nil (cutAt_ne_nil _ _ _ _), ih]
    have there : cs.drop (i + sep.length) = rest := by
      rw [← List.drop_drop, ← Nat.sub_zero i, ← hr, List.drop_left]
    rw [there, List.append_assoc, hr, Nat.sub_zero, List.take_append_drop]

/-- Cut a text at its blanks, at most `limit` times. -/
def cutBlanks : Nat → Option Nat → List Char → List (List Char)
  | 0, _, _ => []
  | fuel + 1, limit, cs =>
    let cs := trimLeft cs
    if cs.isEmpty then []
    else if limit = some 0 then [cs]
    else cs.takeWhile (!isBlank ·) :: cutBlanks fuel (limit.map (· - 1)) (cs.dropWhile (!isBlank ·))

/-- Cut as `cut` does, but from the end. -/
def fromEnd (cut : List Char → List (List Char)) (cs : List Char) : List (List Char) :=
  ((cut cs.reverse).map List.reverse).reverse

/-- The pieces of a text between the places where `sep` occurs, or between blanks if there is no
separator; at most `limit` cuts, counted from the end if `last`. -/
def pieces (sep : Option (List Char)) (limit : Option Nat) (last : Bool) (cs : List Char) : List (List Char) :=
  let fuel := cs.length + 1
  match sep, last && limit.isSome with
  | none, false => cutBlanks fuel limit cs
  | none, true => fromEnd (cutBlanks fuel limit) cs
  | some s, false => cutAt s fuel limit cs
  | some s, true => fromEnd (cutAt s.reverse fuel limit) cs

/-- Replace a text where it occurs, at most `limit` times. The empty text occurs in front of every
character and at the end. -/
def replaced (old new : List Char) (limit : Option Nat) (cs : List Char) : List Char :=
  if old.isEmpty then
    let n := (limit.getD (cs.length + 1))
    let (front, rest) := (cs.take n, cs.drop n)
    front.flatMap (fun c => new ++ [c]) ++ (if n > cs.length then new else []) ++ rest
  else new.intercalate (cutAt old (cs.length + 1) limit cs)

/-- How often a text occurs. -/
def occurrences (part cs : List Char) : Nat :=
  if part.isEmpty then cs.length + 1 else (cutAt part (cs.length + 1) none cs).length - 1

/-- Fill up to the next multiple of `size` where a tabulator stands. `column` counts the characters of
the line. -/
def expandTabs (size : Nat) : Nat → List Char → List Char
  | _, [] => []
  | column, c :: cs =>
    if c = '\t' then
      let n := if size = 0 then 0 else size - column % size
      List.replicate n ' ' ++ expandTabs size (column + n) cs
    else c :: expandTabs size (if c = '\n' || c = '\r' then 0 else column + 1) cs

/-- Every word with a capital letter in front. `inside` says that a letter came before. -/
def titled : Bool → List Char → List Char
  | _, [] => []
  | inside, c :: cs =>
    (if inside then [lower c] else title c) ++ titled (isCapital c || isSmall c) cs

/-- Whether capital letters stand exactly where words begin. `found` says that there was a letter. -/
def isTitled : Bool → Bool → List Char → Bool
  | _, found, [] => found
  | inside, found, c :: cs =>
    if isCapital c then !inside && isTitled true true cs
    else if isSmall c then inside && isTitled true true cs
    else isTitled false found cs

/-- Fill characters on both sides of a text; the odd one goes to the left of an odd width. -/
def centered (cs : List Char) (width : Nat) (fill : Char) : List Char :=
  let n := width - cs.length
  let left := n / 2 + (if n % 2 = 1 && width % 2 = 1 then 1 else 0)
  List.replicate left fill ++ cs ++ List.replicate (n - left) fill

/-- Noughts in front of a number, behind its sign. -/
def zeroFilled (width : Nat) (cs : List Char) : List Char :=
  let noughts := List.replicate (width - cs.length) '0'
  match cs with
  | c :: rest => if c = '-' || c = '+' then c :: noughts ++ rest else noughts ++ cs
  | [] => noughts

end Evalbox.Text
