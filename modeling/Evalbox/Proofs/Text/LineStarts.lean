import Evalbox.Text.Lines
import Mathlib.Data.List.DropRight
import Mathlib.Data.List.GetD

/-!
# Where lines start

Counting line feeds only, a text breaks off in a row, what stands behind its last line feed, and each of its offsets
has a line and a column, both from 1. A line starts at the offset of its first column (`lineStart_add`,
`lineStart_spec`), and it has started by an offset exactly if it does not come after the line of that offset
(`lineStart_le_iff`).
-/

namespace Evalbox.Text

/-- The row that a text breaks off in. -/
def openRow (front : List Char) : List Char := front.rtakeWhile (· ≠ '\n')

theorem openRow_feed (front : List Char) : openRow (front ++ ['\n']) = [] := by
  rw [openRow, List.rtakeWhile_concat]
  rfl

theorem openRow_concat {c : Char} (hc : c ≠ '\n') (front : List Char) :
    openRow (front ++ [c]) = openRow front ++ [c] := by
  rw [openRow, List.rtakeWhile_concat, if_pos (by simpa using hc), openRow]

theorem openRow_unbroken {front : List Char} (h : '\n' ∉ front) : openRow front = front := by
  refine List.rtakeWhile_eq_self_iff.mpr fun c hc => ?_
  simpa using fun h' : c = '\n' => h (h' ▸ hc)

theorem openRow_append_feed (a front : List Char) : openRow (a ++ '\n' :: front) = openRow front := by
  induction front using List.reverseRecOn with
  | nil => exact openRow_feed a
  | append_singleton front c ih =>
    rw [← List.cons_append, ← List.append_assoc]
    by_cases hc : c = '\n'
    · subst hc
      rw [openRow_feed, openRow_feed]
    · rw [openRow_concat hc, openRow_concat hc, ih]

/-! ## Lines and columns -/

/-- How many lines a text has. -/
def lineCount (text : List Char) : Nat := text.count '\n' + 1

/-- The line of an offset. -/
def lineAt (text : List Char) (p : Nat) : Nat := (text.take p).count '\n' + 1

/-- The column of an offset. -/
def columnAt (text : List Char) (p : Nat) : Nat := (openRow (text.take p)).length + 1

/-- The offset at which a line starts. -/
def lineStart (text : List Char) (line : Nat) : Nat := (newlineStarts text).getD (line - 1) 0

variable {text front rest : List Char} {line p q : Nat}

theorem lineAt_pos (text : List Char) (p : Nat) : 1 ≤ lineAt text p := Nat.le_add_left 1 _

theorem columnAt_pos (text : List Char) (p : Nat) : 1 ≤ columnAt text p := Nat.le_add_left 1 _

theorem lineAt_mono (h : p ≤ q) : lineAt text p ≤ lineAt text q :=
  Nat.add_le_add_right ((List.take_prefix_take_left h).sublist.count_le '\n') 1

theorem lineAt_le_lineCount (text : List Char) (p : Nat) : lineAt text p ≤ lineCount text :=
  Nat.add_le_add_right ((List.take_sublist p text).count_le '\n') 1

theorem lineAt_length (text : List Char) : lineAt text text.length = lineCount text := by
  rw [lineAt, List.take_length, lineCount]

/-! ## The list of starts -/

theorem startsAfter_append (base : Nat) (a b : List Char) :
    startsAfter base (a ++ b) = startsAfter base a ++ startsAfter (base + a.length) b := by
  induction a generalizing base with
  | nil => rfl
  | cons c a ih =>
    have hbase : base + (c :: a).length = base + 1 + a.length := by
      rw [List.length_cons]
      omega
    rw [List.cons_append, startsAfter, startsAfter, ih, hbase]
    split <;> rfl

theorem length_startsAfter (base : Nat) (text : List Char) : (startsAfter base text).length = text.count '\n' := by
  induction text generalizing base with
  | nil => rfl
  | cons c text ih =>
    by_cases hc : c = '\n' <;> simp [startsAfter, hc, ih]

theorem length_newlineStarts (text : List Char) : (newlineStarts text).length = lineCount text := by
  rw [newlineStarts, List.length_cons, length_startsAfter, lineCount]

/-- Behind a line feed a line starts. -/
theorem lineStart_feed (front rest : List Char) :
    lineStart (front ++ '\n' :: rest) (front.count '\n' + 2) = front.length + 1 := by
  have hlen : (startsAfter 0 front).length = front.count '\n' := length_startsAfter 0 front
  rw [lineStart, newlineStarts, startsAfter_append, startsAfter, if_pos rfl, Nat.zero_add]
  change (0 :: _).getD (front.count '\n' + 1) 0 = _
  rw [List.getD_cons_succ, ← hlen, List.getD_append_right _ _ _ _ (Nat.le_refl _), Nat.sub_self,
    List.getD_cons_zero]

/-- The row that a text breaks off in begins at the start of its line. The induction is from the end: a character
lengthens the row, or is the line feed behind which the next line starts. -/
theorem lineStart_append (front rest : List Char) :
    lineStart (front ++ rest) (front.count '\n' + 1) + (openRow front).length = front.length := by
  induction front using List.reverseRecOn generalizing rest with
  | nil => rfl
  | append_singleton front c ih =>
    rw [List.append_assoc, List.singleton_append, List.count_append, List.length_append, List.length_singleton]
    by_cases hc : c = '\n'
    · subst hc
      rw [List.count_singleton_self, lineStart_feed, openRow_feed, List.length_nil, Nat.add_zero]
    · have hcount : [c].count '\n' = 0 := List.count_eq_zero_of_not_mem (by simpa using Ne.symm hc)
      have hih := ih (c :: rest)
      rw [hcount, openRow_concat hc, List.length_append, List.length_singleton, Nat.add_zero]
      omega

/-- Every line starts behind a front with as many line feeds as there are lines above. -/
theorem exists_front (hpos : 1 ≤ line) (hle : line ≤ lineCount text) :
    ∃ front rest, text = front ++ rest ∧ openRow front = [] ∧ front.count '\n' + 1 = line := by
  induction line, hpos using Nat.le_induction with
  | base => exact ⟨[], text, rfl, rfl, rfl⟩
  | succ line hpos ih =>
    obtain ⟨front, rest, rfl, hopen, hcount⟩ := ih (by omega)
    have hfeed : '\n' ∈ rest := by
      rw [lineCount, List.count_append] at hle
      exact List.count_pos_iff.mp (by omega)
    obtain ⟨row, rest, rfl, hrow⟩ := List.eq_append_cons_of_mem hfeed
    refine ⟨front ++ row ++ ['\n'], rest, by simp, openRow_feed _, ?_⟩
    rw [List.count_append, List.count_append, List.count_singleton_self, List.count_eq_zero_of_not_mem hrow]
    omega

/-! ## Lines and offsets -/

/-- An offset is as far behind the start of its line as its column says. -/
theorem lineStart_add (h : p ≤ text.length) : lineStart text (lineAt text p) + columnAt text p = p + 1 := by
  have hsplit := lineStart_append (text.take p) (text.drop p)
  rw [List.take_append_drop, List.length_take, Nat.min_eq_left h] at hsplit
  rw [lineAt, columnAt]
  omega

theorem lineStart_spec (hpos : 1 ≤ line) (hle : line ≤ lineCount text) :
    lineStart text line ≤ text.length ∧ lineAt text (lineStart text line) = line ∧
      columnAt text (lineStart text line) = 1 := by
  obtain ⟨front, rest, rfl, hopen, rfl⟩ := exists_front hpos hle
  have hstart := lineStart_append front rest
  rw [hopen, List.length_nil, Nat.add_zero] at hstart
  rw [hstart, lineAt, columnAt, List.take_left, hopen]
  exact ⟨by simp, rfl, rfl⟩

/-- A line has started by an offset exactly if it does not come after the line of that offset. -/
theorem lineStart_le_iff (hpos : 1 ≤ line) (hle : line ≤ lineCount text) :
    lineStart text line ≤ p ↔ line ≤ lineAt text p := by
  obtain ⟨hlen, hline, -⟩ := lineStart_spec hpos hle
  constructor
  · intro h
    exact hline.symm.le.trans (lineAt_mono h)
  · intro h
    by_contra hlt
    -- an offset in front of the start is on no later line, and so on the same one, which starts before it
    have hp : lineAt text p = line := le_antisymm (hline ▸ lineAt_mono (by omega)) h
    have hadd := lineStart_add (show p ≤ text.length by omega)
    have hcol := columnAt_pos text p
    rw [hp] at hadd
    omega

/-- What is so many characters behind the start of a line, but not behind the end of the text, lies in the line exactly
if the line has such a column or is the last one. -/
theorem lineAt_min_iff (hpos : 1 ≤ line) (hle : line ≤ lineCount text) (behind : Nat) :
    lineAt text (min (lineStart text line + behind) text.length) = line ↔
      (∃ p ≤ text.length, lineAt text p = line ∧ columnAt text p = behind + 1) ∨ line = lineCount text := by
  constructor
  · intro h
    by_cases hcut : lineStart text line + behind ≤ text.length
    · left
      rw [Nat.min_eq_left hcut] at h
      have hadd := lineStart_add hcut
      rw [h] at hadd
      exact ⟨_, hcut, h, by omega⟩
    · right
      rw [Nat.min_eq_right (by omega), lineAt_length] at h
      exact h.symm
  · rintro (⟨p, hp, hat, hcol⟩ | hlast)
    · have hadd := lineStart_add hp
      rw [hat] at hadd
      have hmin : min (lineStart text line + behind) text.length = p := by omega
      rw [hmin, hat]
    · have hlen := (lineStart_spec hpos hle).1
      refine le_antisymm (hlast ▸ lineAt_le_lineCount ..) ((lineStart_le_iff hpos hle).mp ?_)
      omega

end Evalbox.Text
