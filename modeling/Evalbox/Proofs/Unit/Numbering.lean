import Evalbox.Proofs.Compile.Target
import Evalbox.Unit.Wrap
import Mathlib.Data.List.Forall2

/-!
# Lines of a unit

Display lines are at most as long as rows, so that indenting a body by display lines puts blanks into its rows and
keeps their number (`rows_indent`). A unit has the rows of its prelude, the two rows of its header and then those of
its body. `snippetOffset` counts the line feeds in front of the body, and a lone carriage return ends a row that it
does not count (`snippetOffset_exact`).
-/

namespace Evalbox

open Text

/-- A text with blanks put into it. -/
inductive Respaced : List Char → List Char → Prop
  | nil : Respaced [] []
  | keep (c : Char) {a b : List Char} : Respaced a b → Respaced (c :: a) (c :: b)
  | blank {a b : List Char} : Respaced a b → Respaced a (' ' :: b)

namespace Respaced

theorem refl (a : List Char) : Respaced a a := by
  induction a with
  | nil => exact .nil
  | cons c a ih => exact .keep c ih

theorem blanks (n : Nat) {a b : List Char} (h : Respaced a b) : Respaced a (List.replicate n ' ' ++ b) := by
  induction n with
  | zero => exact h
  | succ n ih => exact .blank ih

theorem append {a b a' b' : List Char} (h : Respaced a b) (h' : Respaced a' b') : Respaced (a ++ a') (b ++ b') := by
  induction h with
  | nil => exact h'
  | keep c _ ih => exact .keep c ih
  | blank _ ih => exact .blank ih

end Respaced

/-! ## Indented rows -/

section Indented

variable {x e : List Char}

/-- A row that stands behind the line so far, cut into display lines that are indented: blanks are put in, and the
end of the row stays where it is. -/
theorem flatMap_row (hx : Unbroken x) (he : e = [] ∨ RowEnd e) {line : List Char} (hl : Unbroken line) :
    ∃ y, (cutLines isDisplayBreak line (x ++ e)).flatMap (bodyIndent ++ ·) = y ++ e ∧ Unbroken y ∧
      Respaced (line.reverse ++ x) y ∧ (line.reverse ++ x ++ e ≠ [] → y.head? = some ' ') := by
  have hm : Unbroken bodyIndent := fun c hc => by
    obtain rfl := List.eq_of_mem_replicate hc
    decide
  have hr {line : List Char} (hl : Unbroken line) : Unbroken line.reverse := fun c hc => hl c (List.mem_reverse.mp hc)
  have hnil : Unbroken [] := fun c hc => nomatch hc
  induction x generalizing line with
  | nil =>
    have hy : Respaced (line.reverse ++ []) (bodyIndent ++ line.reverse) := by
      rw [List.append_nil]
      exact .blanks 8 (.refl _)
    rcases he with rfl | he
    · by_cases hne : line = []
      · subst hne
        exact ⟨[], rfl, by simp [Unbroken], .nil, fun h => absurd rfl h⟩
      · refine ⟨bodyIndent ++ line.reverse, ?_, List.forall_mem_append.mpr ⟨hm, hr hl⟩, hy, fun _ => rfl⟩
        simp [cutLines, hne]
    · refine ⟨bodyIndent ++ line.reverse, ?_, List.forall_mem_append.mpr ⟨hm, hr hl⟩, hy, fun _ => rfl⟩
      cases he <;> simp [cutLines, isDisplayBreak]
  | cons c x ih =>
    have hx' : Unbroken x := fun d hd => hx d (List.mem_cons_of_mem c hd)
    have hc : isSourceBreak c = false := hx c List.mem_cons_self
    have hne : c ≠ '\r' := (hx.ne_return c List.mem_cons_self).2
    have hline : Unbroken (c :: line) := List.forall_mem_cons.mpr ⟨hc, hl⟩
    rw [List.cons_append, cutLines_cons fun h => absurd h hne]
    by_cases hb : isDisplayBreak c = true
    · -- the display line ends inside the row: the margin of the next one is put into the row
      obtain ⟨y, hy, hu, hs, -⟩ := ih hx' hnil
      refine ⟨bodyIndent ++ (c :: line).reverse ++ y, ?_, ?_, ?_, fun _ => rfl⟩
      · rw [if_pos hb, List.flatMap_cons, hy]
        simp only [List.append_assoc]
      · exact List.forall_mem_append.mpr ⟨List.forall_mem_append.mpr ⟨hm, hr hline⟩, hu⟩
      · have h : Respaced ((c :: line).reverse ++ x) ((c :: line).reverse ++ y) := (Respaced.refl _).append hs
        have h8 : Respaced _ (bodyIndent ++ _) := h.blanks 8
        simpa using h8
    · obtain ⟨y, hy, hu, hs, hh⟩ := ih hx' hline
      refine ⟨y, ?_, hu, by simpa using hs, fun _ => hh (by simp)⟩
      rw [if_neg hb, hy]

/-- An indented row is a row. -/
theorem indent_row (hx : Unbroken x) (he : e = [] ∨ RowEnd e) :
    ∃ y, indent bodyIndent (x ++ e) = y ++ e ∧ Unbroken y ∧ Respaced x y ∧ (x ++ e ≠ [] → y.head? = some ' ') :=
  flatMap_row hx he fun _ hc => nomatch hc

theorem displayBreak_of_source {c : Char} (h : isSourceBreak c = true) : isDisplayBreak c = true := by
  rcases (by simpa [isSourceBreak] using h : c = '\n' ∨ c = '\r') with rfl | rfl <;> rfl

theorem Text.RowEnd.displayBreak (he : RowEnd e) (x : List Char) :
    ∃ c, (x ++ e).getLast? = some c ∧ isDisplayBreak c = true := by
  obtain ⟨c, hc, hb⟩ := he.getLast? x
  exact ⟨c, hc, displayBreak_of_source hb⟩

/-- Behind a row the next display line begins. -/
theorem displayLines_cons (he : RowEnd e) {rest : List Char} (hp : Parted e rest) :
    displayLines (x ++ e ++ rest) = displayLines (x ++ e) ++ displayLines rest := by
  obtain ⟨c, hc, hb⟩ := he.displayBreak x
  exact cutLines_append rfl hc hb (he.parted_append x hp) []

theorem indent_cons (he : RowEnd e) {rest : List Char} (hp : Parted e rest) :
    indent bodyIndent (x ++ e ++ rest) = indent bodyIndent (x ++ e) ++ indent bodyIndent rest := by
  rw [indent, displayLines_cons he hp, List.flatMap_append]
  rfl

theorem head?_indent (text : List Char) : indent bodyIndent text = [] ∨ (indent bodyIndent text).head? = some ' ' := by
  unfold indent
  cases displayLines text with
  | nil => exact .inl rfl
  | cons line lines => exact .inr rfl

/-- Indenting puts blanks into the rows of a text, and keeps them apart. -/
theorem rows_indent (text : List Char) : List.Forall₂ Respaced (rows text) (rows (indent bodyIndent text)) := by
  induction text using rows_induction with
  | nil => exact .nil
  | last x hx hne =>
    obtain ⟨y, hy, hu, hs, hh⟩ := indent_row hx (.inl rfl)
    rw [List.append_nil, List.append_nil] at hy
    have hy' : y ≠ [] := fun h => by simp [h, hne] at hh
    rw [hy, rows_open hx hne, rows_open hu hy']
    exact .cons hs .nil
  | row x e rest hx he hp ih =>
    obtain ⟨y, hy, hu, hs, -⟩ := indent_row hx (.inr he)
    have hp' : Parted e (indent bodyIndent rest) := fun _ => by
      rcases head?_indent rest with h | h <;> simp [h]
    rw [indent_cons he hp, hy, rows_cons hx he hp, rows_cons hu he hp']
    exact .cons hs ih

end Indented

/-! ## Rows of units -/

/-- The rows between the prelude and the body. -/
def headerRows (name : String) : List (List Char) :=
  ["class ".toList ++ name.toList ++ [':'], "    def __call__(self):".toList]

theorem unitHeader_eq (name : String) : unitHeader name =
    ("class ".toList ++ name.toList ++ [':']) ++ ['\n'] ++ ("    def __call__(self):".toList ++ ['\n']) := by
  have htail : ":\n    def __call__(self):\n".toList =
      [':'] ++ (['\n'] ++ ("    def __call__(self):".toList ++ ['\n'])) := rfl
  refine (congrArg (("class ".toList ++ name.toList) ++ ·) htail).trans ?_
  simp only [List.append_assoc]

theorem rows_header {name : String} (hn : Unbroken name.toList) (rest : List Char) :
    rows (unitHeader name ++ rest) = headerRows name ++ rows rest := by
  have hclass : Unbroken "class ".toList := by decide
  have hcolon : Unbroken [':'] := by decide
  have hdef : Unbroken "    def __call__(self):".toList := by decide
  have hp {rest : List Char} : Parted ['\n'] rest := fun h => (nomatch Option.some.inj h)
  rw [unitHeader_eq, List.append_assoc, rows_cons ((hclass.append hn).append hcolon) .feed hp, rows_cons hdef .feed hp]
  rfl

theorem unitHead_closed (prelude : List Char) : unitHead prelude = [] ∨ (unitHead prelude).getLast? = some '\n' := by
  unfold unitHead
  split
  · exact .inl rfl
  · split
    case isTrue h => exact .inr h
    case isFalse => exact .inr (by simp)

/-- The names of units are made of letters, digits and bars. -/
theorem unitName_unbroken (n : Nat) : Unbroken (unitName n).toList := by
  have hl : (unitName n).toList = "_SnippetUnit_".toList ++ Nat.toDigits 10 n := by
    simp only [unitName, String.toList_append, toString, Nat.toList_repr]
  rw [hl]
  have hfront : Unbroken "_SnippetUnit_".toList := by decide
  refine hfront.append fun c hc => ?_
  have hd : c.isDigit = true := Nat.isDigit_of_mem_toDigits (by decide) (by decide) hc
  cases hb : isSourceBreak c with
  | false => rfl
  | true =>
    rcases (by simpa [isSourceBreak] using hb : c = '\n' ∨ c = '\r') with rfl | rfl <;> exact absurd hd (by decide)

/-- How many rows stand in front of the body of a unit. -/
def rowsBefore (prelude : List Char) : Nat := (rows (unitHead prelude)).length + 2

/-- The rows of a unit: those of its prelude, the two of its header, and those of its body with blanks put in. -/
theorem rows_wrap {prelude code : List Char} {name : String} {u : SnippetUnit} (hn : Unbroken name.toList)
    (h : wrap prelude code name = .ok u) : ∃ body spaced, unitBody code = .ok body ∧
      rows u.source = rows (unitHead prelude) ++ headerRows name ++ spaced ∧ List.Forall₂ Respaced (rows body) spaced ∧
      u.snippetOffset + loneReturns (unitHead prelude) = rowsBefore prelude := by
  unfold wrap at h
  split at h
  case h_1 => cases h
  case h_2 body hb =>
    obtain rfl := Except.ok.inj h
    refine ⟨body, rows (indent bodyIndent body), hb, ?_, rows_indent body, ?_⟩
    · have hrows : rows (unitHead prelude ++ unitHeader name ++ indent bodyIndent body) =
          rows (unitHead prelude) ++ headerRows name ++ rows (indent bodyIndent body) := by
        rw [List.append_assoc, rows_append (unitHead_closed prelude), rows_header hn, List.append_assoc]
      have hne : unitHead prelude ++ unitHeader name ++ indent bodyIndent body ≠ [] := by
        rw [List.append_assoc]
        exact List.append_ne_nil_of_right_ne_nil _ (List.cons_ne_nil _ _)
      dsimp only
      split
      case isTrue => exact hrows
      case isFalse hl => rw [rows_close hne hl, hrows]
    · dsimp only
      rw [rowsBefore, length_rows ((unitHead_closed prelude).imp_right fun h => ⟨'\n', h, rfl⟩)]
      omega

/-- Every line of a unit is mapped to the row of the body that it is, and to none if it stands in front of it. -/
def SnippetUnit.MapsLines (u : SnippetUnit) (before : Nat) : Prop :=
  ∀ line : Nat, line ≤ (rows u.source).length →
    u.snippetLine line = if line ≤ before then none else some ((line : Int) - before)

/-- Where the lines of a unit are, and what they are mapped to. -/
structure Numbered (prelude body : List Char) (name : String) (u : SnippetUnit) : Prop where
  /-- In front of the body are the rows of the prelude and those of the header. -/
  front : (rows u.source).take (rowsBefore prelude) = rows (unitHead prelude) ++ headerRows name
  /-- Behind them, the `k`-th row is the `k`-th row of the body with blanks put in. -/
  body : List.Forall₂ Respaced (rows body) ((rows u.source).drop (rowsBefore prelude))
  /-- Lines are mapped as if each lone carriage return of the prelude were not there. -/
  shifted : ∀ line : Nat, u.snippetLine line =
    if line + loneReturns (unitHead prelude) ≤ rowsBefore prelude then none
    else some ((line : Int) + loneReturns (unitHead prelude) - rowsBefore prelude)
  /-- So they are mapped to the rows of the body exactly if there is none. -/
  exactly : u.MapsLines (rowsBefore prelude) ↔ loneReturns (unitHead prelude) = 0

/-- The numbers of the lines of a unit. -/
theorem wrap_numbered {prelude code : List Char} {n : Nat} {u : SnippetUnit}
    (h : wrap prelude code (unitName n) = .ok u) :
    ∃ body, unitBody code = .ok body ∧ Numbered prelude body (unitName n) u := by
  obtain ⟨body, spaced, hb, hrows, hs, ho⟩ := rows_wrap (unitName_unbroken n) h
  have hlen : (rows (unitHead prelude) ++ headerRows (unitName n)).length = rowsBefore prelude := by
    rw [List.length_append]
    rfl
  have hshift : ∀ line : Nat, u.snippetLine line =
      if line + loneReturns (unitHead prelude) ≤ rowsBefore prelude then none
      else some ((line : Int) + loneReturns (unitHead prelude) - rowsBefore prelude) := by
    intro line
    simp only [SnippetUnit.snippetLine]
    split
    case isTrue hl =>
      rw [if_neg (by omega)]
      congr 1
      omega
    case isFalse hl => rw [if_pos (by omega)]
  refine ⟨body, hb, ⟨?_, ?_, hshift, ?_, ?_⟩⟩
  · rw [hrows, ← hlen, List.take_left]
  · rwa [hrows, ← hlen, List.drop_left]
  · -- the second row of the header is the last line in front of the body
    intro hm
    have hle : rowsBefore prelude ≤ (rows u.source).length := by
      rw [hrows, List.length_append, hlen]
      omega
    have hm' := hm (rowsBefore prelude) hle
    rw [hshift, if_pos (Nat.le_refl _)] at hm'
    split at hm'
    case isTrue hl => omega
    case isFalse => cases hm'
  · intro h0 line _
    rw [hshift, h0]
    rfl

/-- A prelude of three rows, the first of which ends in both characters and the second in a carriage return alone. -/
def mixedPrelude : List Char := "import os\r\na = 1\rb = 2".toList

theorem mixed_numbered : ∃ u body, wrap mixedPrelude "x = a\x0c + b\n1/0".toList (unitName 1) = .ok u ∧
    unitBody "x = a\x0c + b\n1/0".toList = .ok body ∧ Numbered mixedPrelude body (unitName 1) u := by
  have h : (wrap mixedPrelude "x = a\x0c + b\n1/0".toList (unitName 1)).toOption.isSome = true := by decide +kernel
  obtain ⟨body, hb, hn⟩ := wrap_numbered (wrap_getD h)
  exact ⟨_, body, wrap_getD h, hb, hn⟩

/-- Behind a lone carriage return, the header of the method counts as the first line of the snippet, and the first line
of the snippet as the second. -/
theorem carriage_return_miscounts :
    (wrap "a = 1\rb = 2\n".toList "1/0".toList (unitName 1)).toOption.map
      (fun u => ((rows u.source)[3]?, u.snippetLine 4, (rows u.source)[4]?, u.snippetLine 5)) =
    some (some "    def __call__(self):".toList, some 1, some "        return 1/0".toList, some 2) := by
  decide +kernel

end Evalbox
