import Evalbox.Diagnostics.Basic
import Evalbox.Proofs.Text.LineStarts

/-!
# Where a message points

A message names a line and a column. If these are the line and the column of an offset, the message points there
(`position_exact`). Whatever else they are, it points into the text, at or behind the start of the line that is
reported. A column that goes beyond its line is not cut back to it: only then, and if another line follows, does the
message point to a later line than it reports (`reported_line_exact`).
-/

namespace Evalbox

open Text

/-- The line of a text that is nearest to a line number. -/
def nearestLine (text : List Char) (line : Int) : Nat := (min (max line 1) (lineCount text)).toNat

/-- How many characters a column is behind the first one. A missing column is the first, and so are those below it. -/
def columnsBehind (column : Option Int) : Nat := (column.getD 1 - 1).toNat

theorem columnsBehind_add_one (column : Option Int) : (columnsBehind column : Int) + 1 = max (column.getD 1) 1 := by
  rw [columnsBehind]
  omega

section Offsets

variable {text : List Char}

theorem nearestLine_pos (text : List Char) (line : Int) : 1 ≤ nearestLine text line := by
  have hcount : 1 ≤ lineCount text := Nat.le_add_left 1 _
  rw [nearestLine]
  omega

theorem nearestLine_le (text : List Char) (line : Int) : nearestLine text line ≤ lineCount text := by
  rw [nearestLine]
  omega

theorem nearestLine_lineAt (p : Nat) : nearestLine text (lineAt text p) = lineAt text p := by
  have hpos := lineAt_pos text p
  have hle := lineAt_le_lineCount text p
  rw [nearestLine]
  omega

theorem offsetOf_eq (text : List Char) (line : Int) (column : Option Int) :
    offsetOf (newlineStarts text) text.length line column =
      min (lineStart text (nearestLine text line) + columnsBehind column) text.length := by
  simp only [offsetOf, length_newlineStarts]
  cases column <;> rfl

/-- The line and the column of an offset lead back to it. -/
theorem offsetOf_at {p : Nat} (h : p ≤ text.length) :
    offsetOf (newlineStarts text) text.length (lineAt text p) (some (columnAt text p)) = p := by
  have hadd := lineStart_add h
  have hpos := columnAt_pos text p
  have hcol : columnsBehind (some (columnAt text p)) = columnAt text p - 1 := by
    rw [columnsBehind, Option.getD_some]
    omega
  rw [offsetOf_eq, nearestLine_lineAt, hcol]
  omega

/-- No offset is in front of its line. -/
theorem lineStart_le_offsetOf (text : List Char) (line : Int) (column : Option Int) :
    lineStart text (nearestLine text line) ≤ offsetOf (newlineStarts text) text.length line column := by
  have hstart := (lineStart_spec (nearestLine_pos text line) (nearestLine_le text line)).1
  rw [offsetOf_eq]
  omega

theorem offsetOf_le (text : List Char) (line : Int) (column : Option Int) :
    offsetOf (newlineStarts text) text.length line column ≤ text.length := by
  rw [offsetOf_eq]
  exact Nat.min_le_right ..

end Offsets

/-- A position that lies in a text and in the line that it reports, or behind that line. -/
structure Position.Within (pos : Position) (text : List Char) : Prop where
  start_eq : pos.start = pos.point
  point_le : pos.point ≤ pos.stop
  stop_le : pos.stop ≤ text.length
  line_pos : 1 ≤ pos.line
  line_le : pos.line ≤ lineCount text
  /-- The line has started where the message points. -/
  started : ∃ start ≤ pos.point, lineAt text start = pos.line ∧ columnAt text start = 1

namespace Message

/-- The offset that a message names as its end, if it names one. -/
def stop? (m : Message) (source : List Char) : Option Nat :=
  m.endLine.bind fun line => m.endColumn.map fun column =>
    offsetOf (newlineStarts source) source.length line (some column)

/-- The column of a message is that of an offset of a line, where a missing column and those below 1 count as 1. The
offset in front of the line feed belongs to the line. -/
def StaysIn (m : Message) (source : List Char) (line : Nat) : Prop :=
  ∃ p ≤ source.length, lineAt source p = line ∧ (columnAt source p : Int) = max (m.column.getD 1) 1

variable {m : Message} {source : List Char} {line : Int}

theorem position?_eq_none : m.position? source = none ↔ m.line = none ∨ ∃ n, m.line = some n ∧ n < 1 := by
  rw [position?]
  cases m.line with
  | none => simp
  | some n =>
    by_cases hn : n < 1 <;> simp [hn]

theorem position?_of_line (hline : m.line = some line) (hpos : 1 ≤ line) {point : Nat}
    (hpoint : offsetOf (newlineStarts source) source.length line m.column = point) :
    m.position? source =
      some ⟨point, point, max ((m.stop? source).getD point) point, nearestLine source line⟩ := by
  have hrow : nearestLine source (min line (lineCount source)) = nearestLine source line := by
    rw [nearestLine, nearestLine]
    omega
  have hnat : (min line (lineCount source)).toNat = nearestLine source line := by
    rw [nearestLine]
    omega
  rw [offsetOf_eq] at hpoint
  simp only [position?, hline, length_newlineStarts, if_neg (Int.not_lt.mpr hpos)]
  rw [offsetOf_eq, hrow, hpoint, hnat, stop?]
  cases m.endLine <;> cases m.endColumn <;> simp

theorem stop?_le {stop : Nat} (h : m.stop? source = some stop) : stop ≤ source.length := by
  obtain ⟨l, -, h⟩ := Option.bind_eq_some_iff.mp h
  obtain ⟨c, -, rfl⟩ := Option.map_eq_some_iff.mp h
  exact offsetOf_le source l (some c)

theorem position?_within (hline : m.line = some line) (hpos : 1 ≤ line) :
    ∃ pos, m.position? source = some pos ∧ pos.Within source := by
  have hpoint := offsetOf_le source line m.column
  have hstop : (m.stop? source).getD (offsetOf (newlineStarts source) source.length line m.column) ≤
      source.length := by
    cases hs : m.stop? source with
    | none => exact hpoint
    | some stop => exact stop?_le hs
  obtain ⟨-, hat, hcol⟩ := lineStart_spec (nearestLine_pos source line) (nearestLine_le source line)
  exact ⟨_, position?_of_line hline hpos rfl, rfl, Nat.le_max_right .., Nat.max_le.mpr ⟨hstop, hpoint⟩,
    nearestLine_pos source line, nearestLine_le source line, _, lineStart_le_offsetOf source line m.column, hat, hcol⟩

/-- The line and the column of an offset, and of another one as the end, give these offsets. Any line from 1 on and any
other parts give a position within the text, and there is none only without such a line. -/
theorem position_exact :
    (∀ (source : List Char) (p q : Nat) (m : Message), p ≤ source.length → q ≤ source.length →
      m.line = some (lineAt source p : Int) → m.column = some (columnAt source p : Int) →
      m.endLine = some (lineAt source q : Int) → m.endColumn = some (columnAt source q : Int) →
      m.position? source = some ⟨p, p, max p q, lineAt source p⟩) ∧
    (∀ (source : List Char) (m : Message) (line : Int), m.line = some line → 1 ≤ line →
      ∃ pos, m.position? source = some pos ∧ pos.Within source) ∧
    (∀ (source : List Char) (m : Message),
      m.position? source = none ↔ m.line = none ∨ ∃ line, m.line = some line ∧ line < 1) := by
  refine ⟨?_, fun _ _ _ hline hpos => position?_within hline hpos, fun _ _ => position?_eq_none⟩
  intro source p q m hp hq hline hcol hendLine hendCol
  have hpos : 1 ≤ (lineAt source p : Int) := by exact_mod_cast lineAt_pos source p
  have hpoint : offsetOf (newlineStarts source) source.length (lineAt source p) m.column = p := by
    rw [hcol, offsetOf_at hp]
  have hstop : m.stop? source = some q := by
    rw [stop?, hendLine, hendCol, Option.bind_some, Option.map_some, offsetOf_at hq]
  rw [position?_of_line hline hpos hpoint, hstop, Option.getD_some, nearestLine_lineAt, Nat.max_comm]

/-- An end in front of the start, and a line and a column that are not there. -/
theorem crossed_position_exact :
    (⟨Level.error, "", some 2, some 2, some 1, some 3⟩ : Message).position? "ab\ncd".toList = some ⟨4, 4, 4, 2⟩ ∧
    ∃ pos, (⟨Level.error, "", some 7, some (-1), some 0, none⟩ : Message).position? "ab\ncd".toList = some pos ∧
      pos.Within "ab\ncd".toList :=
  ⟨position_exact.1 "ab\ncd".toList 4 2 _ (by decide) (by decide) (by decide) (by decide) (by decide) (by decide),
    position_exact.2.1 "ab\ncd".toList _ 7 rfl (by decide)⟩

theorem staysIn_iff {row : Nat} : m.StaysIn source row ↔
    ∃ p ≤ source.length, lineAt source p = row ∧ columnAt source p = columnsBehind m.column + 1 := by
  have hbehind := columnsBehind_add_one m.column
  refine exists_congr fun p => and_congr_right fun _ => and_congr_right fun _ => ?_
  omega

/-- The line of a message is reported, or the last one if there are fewer. The message never points in front of it, and
points into it exactly if its column stays in it or no other line follows. -/
theorem reported_line_exact (source : List Char) (m : Message) (hline : m.line = some line) (hpos : 1 ≤ line) :
    ∃ pos, m.position? source = some pos ∧ (pos.line : Int) = min line (lineCount source) ∧
      pos.line ≤ lineAt source pos.point ∧
      (pos.line = lineAt source pos.point ↔ m.StaysIn source pos.line ∨ pos.line = lineCount source) := by
  have hnear := nearestLine_pos source line
  have hle := nearestLine_le source line
  have hstart := lineStart_le_offsetOf source line m.column
  refine ⟨_, position?_of_line hline hpos rfl, ?_, (lineStart_le_iff hnear hle).mp hstart, ?_⟩
  · dsimp only
    rw [nearestLine]
    omega
  · dsimp only
    rw [eq_comm, offsetOf_eq, staysIn_iff]
    exact lineAt_min_iff hnear hle _

/-- The column of the line feed. -/
theorem feed_column_reported : ∃ pos,
    (⟨Level.error, "", some 1, some 3, none, none⟩ : Message).position? "ab\ncd".toList = some pos ∧
      pos.line = lineAt "ab\ncd".toList pos.point := by
  obtain ⟨pos, hpos, -, -, hiff⟩ := reported_line_exact "ab\ncd".toList
    ⟨Level.error, "", some 1, some 3, none, none⟩ rfl (by decide)
  obtain rfl : pos = ⟨2, 2, 2, 1⟩ := Option.some.inj (hpos.symm.trans (by decide))
  exact ⟨_, hpos, hiff.mpr (.inl ⟨2, by decide, by decide, by decide⟩)⟩

/-- A column beyond the first line gives a point in the second one, and still the first line is reported. -/
theorem overlong_column_strays :
    (⟨Level.error, "m", some 1, some 10, none, none⟩ : Message).position? "ab\ncd".toList = some ⟨5, 5, 5, 1⟩ ∧
      lineAt "ab\ncd".toList 5 = 2 := by
  decide

end Message

end Evalbox
