import Evalbox.Proofs.Lang.Places
import Evalbox.Proofs.Lang.Statements
import Evalbox.Proofs.Unit.Padding

/-!
# Places and offsets

A place names a line and a number of bytes; an offset counts characters. A place that the parser reports of a statement
is an offset of the code itself (`exists_cut_of_parse`): the lines in front of it are lines of the code, however they
end, and its bytes are those of whole characters.
-/

namespace Evalbox

open Text Lang

section Canonical

variable {x e rest : List Char}

/-- A row that another follows, or that ends in both characters. -/
theorem canonical_row (hx : Unbroken x) (he : RowEnd e) (hp : Parted e rest) (h : rest ≠ [] ∨ e = ['\r', '\n']) :
    canonical (x ++ e ++ rest) = x ++ '\n' :: canonical rest := by
  have hr : '\r' ∉ x := fun h => (hx.ne_return _ h).2 rfl
  rw [List.append_assoc, canonical_append hr (List.append_ne_nil_of_left_ne_nil he.ne_nil rest)]
  congr 1
  cases he with
  | feed => exact canonical_cons (by decide) (.inr (h.resolve_right (by decide)))
  | ret => exact canonical_return (h.resolve_right (by decide)) (hp rfl)
  | both => rw [List.cons_append, List.cons_append, List.nil_append, canonical]

/-- The last row, with its end or without. -/
theorem canonical_open (hx : Unbroken x) (he : e = ['\n'] ∨ e = ['\r'] ∨ e = [] ∧ x ≠ []) :
    canonical (x ++ e) = x ++ ['\n'] := by
  have hr : '\r' ∉ x := fun h => (hx.ne_return _ h).2 rfl
  rcases he with rfl | rfl | ⟨rfl, hne⟩
  · exact canonical_append hr (by simp)
  · exact canonical_append hr (by simp)
  · obtain ⟨y, c, rfl⟩ := (List.eq_nil_or_concat x).resolve_left hne
    have hc : isSourceBreak c = false := hx c (by simp)
    rw [List.append_nil, List.concat_eq_append, canonical_append (fun h => hr (by simp [h])) (by simp), canonical_cons]
    · simp [canonical]
    · rintro rfl
      cases hc
    · left
      rintro rfl
      cases hc

end Canonical

/-- A code that is cut inside a line: the lines above, the front of the line, and a character of it with the rest. -/
structure Cut (code above row : List Char) (c : Char) (after : List Char) : Prop where
  text : code = above ++ row ++ c :: after
  closed : above = [] ∨ ∃ d, above.getLast? = some d ∧ isSourceBreak d = true
  parted : Parted above (row ++ c :: after)
  unbroken : Unbroken row

namespace Cut

variable {code above row after x e : List Char} {c : Char}

/-- A cut below the first line. -/
theorem below (h : Cut code above row c after) (he : RowEnd e) (hp : Parted e code) :
    Cut (x ++ e ++ code) (x ++ e ++ above) row c after := by
  refine ⟨by simp [h.text], ?_, ?_, h.unbroken⟩
  · rcases h.closed with rfl | ⟨d, hd, hb⟩
    · rw [List.append_nil]
      exact .inr (he.getLast? x)
    · exact .inr ⟨d, by rw [List.getLast?_append, hd]; rfl, hb⟩
  · rcases h.closed with rfl | ⟨d, hd, -⟩
    · have htext := h.text
      rw [List.nil_append] at htext
      rw [List.append_nil]
      exact he.parted_append x (htext ▸ hp)
    · intro hr
      rw [List.getLast?_append, hd] at hr
      exact h.parted (hd.trans hr)

theorem parted_above (h : Cut code above row c after) (hp : Parted e code) : Parted e above := by
  rw [h.text, List.append_assoc] at hp
  exact hp.of_append

end Cut

/-- A character of a text that is no line feed is in its first row, or behind the end of that. -/
theorem first_or_below {x tail front rest : List Char} {c : Char} (hc : c ≠ '\n')
    (h : x ++ '\n' :: tail = front ++ c :: rest) :
    (∃ after, x = front ++ c :: after) ∨ ∃ front', front = x ++ '\n' :: front' ∧ tail = front' ++ c :: rest := by
  rcases List.append_eq_append_iff.mp h with ⟨a, rfl, ha⟩ | ⟨a, rfl, ha⟩
  · cases a with
    | nil => exact absurd (List.cons.inj ha).1.symm hc
    | cons d a =>
      obtain ⟨rfl, rfl⟩ := List.cons.inj ha
      exact .inr ⟨a, rfl, rfl⟩
  · cases a with
    | nil => exact absurd (List.cons.inj ha).1 hc
    | cons d a =>
      obtain ⟨rfl, -⟩ := List.cons.inj ha
      exact .inl ⟨a, rfl⟩

/-- What goes in behind the front of a row parts no end of a row in front of it. -/
theorem parted_insert {e front rest x : List Char} (h : Parted e (front ++ rest)) (hx : Unbroken x) :
    Parted e (front ++ (x ++ rest)) := by
  cases front with
  | cons d front => exact h
  | nil =>
    cases x with
    | nil => exact h
    | cons d x =>
      intro _ hn
      have hd : isSourceBreak d = false := hx d List.mem_cons_self
      rw [Option.some.inj hn] at hd
      cases hd

/-- A cut that is as many lines down, and as far in its row, as `front` says. What is inserted there comes behind `front`
in the canonical form. -/
def CutBehind (code front : List Char) (c : Char) (rest : List Char) : Prop :=
  ∃ above row after, Cut code above row c after ∧ (sourceLines above).length = front.count '\n' ∧ openRow front = row ∧
    ∀ x, Unbroken x → canonical (above ++ row ++ (x ++ c :: after)) = front ++ (x ++ c :: rest)

theorem cutBehind_first {front after tail rest : List Char} {c : Char} (hx : Unbroken (front ++ c :: after))
    (h : canonical (front ++ c :: after ++ tail) = front ++ c :: rest) :
    CutBehind (front ++ c :: after ++ tail) front c rest := by
  have hf : Unbroken front := (List.forall_mem_append.mp hx).1
  have hreturn {y : List Char} (hy : Unbroken y) : '\r' ∉ y := fun h => (hy.ne_return _ h).2 rfl
  refine ⟨[], front, after ++ tail, ⟨by simp, .inl rfl, (fun h => nomatch h), hf⟩, ?_, ?_, fun x hx' => ?_⟩
  · rw [count_unbroken hf]
    rfl
  · exact openRow_unbroken fun h => absurd (hf _ h) (by decide)
  · rw [List.append_assoc, List.cons_append, canonical_append (hreturn hf) (List.cons_ne_nil _ _)] at h
    rw [List.nil_append, ← List.append_assoc, canonical_append (hreturn (List.forall_mem_append.mpr ⟨hf, hx'⟩))
      (List.cons_ne_nil _ _), List.append_cancel_left h, List.append_assoc]

theorem cutBehind_below {code x e front rest : List Char} {c : Char} (hx : Unbroken x) (he : RowEnd e)
    (hp : Parted e code) (h : CutBehind code front c rest) : CutBehind (x ++ e ++ code) (x ++ '\n' :: front) c rest := by
  obtain ⟨above, row, after, hcut, hlines, hopen, hcanon⟩ := h
  refine ⟨x ++ e ++ above, row, after, hcut.below he hp, ?_, ?_, fun y hy => ?_⟩
  · rw [sourceLines_cons hx he (hcut.parted_above hp), List.length_cons, hlines, List.count_append, count_unbroken hx,
      List.count_cons_self, Nat.zero_add]
  · rw [openRow_append_feed, hopen]
  · have hp' : Parted e (above ++ row ++ (y ++ c :: after)) := parted_insert (hcut.text ▸ hp) hy
    rw [List.append_assoc (x ++ e), List.append_assoc (x ++ e), canonical_row hx he hp' (.inl (by simp)), hcanon y hy,
      List.append_assoc, List.cons_append]

/-- Behind what becomes of the end of the last row there is nothing. -/
theorem cutBehind_last {x e front rest : List Char} {c : Char} (hc : c ≠ '\n') (hx : Unbroken x)
    (he : e = ['\n'] ∨ e = ['\r'] ∨ e = [] ∧ x ≠ []) (h : canonical (x ++ e) = front ++ c :: rest) :
    CutBehind (x ++ e) front c rest := by
  rcases first_or_below hc ((canonical_open hx he).symm.trans h) with ⟨after, rfl⟩ | ⟨front', -, h⟩
  · exact cutBehind_first hx h
  · exact absurd h (by simp)

/-- A character of the canonical form that ends no row is one of the code. -/
theorem cutBehind_of_canonical {code front rest : List Char} {c : Char} (h : canonical code = front ++ c :: rest)
    (hc : c ≠ '\n') : CutBehind code front c rest := by
  induction code using rows_induction generalizing front with
  | nil =>
    rcases first_or_below (x := []) hc h with ⟨after, h⟩ | ⟨front', -, h⟩
    · exact absurd h (by simp)
    · exact absurd h (by simp)
  | last x hx hne =>
    rw [← List.append_nil x] at h ⊢
    exact cutBehind_last hc hx (.inr (.inr ⟨rfl, hne⟩)) h
  | row x e rest' hx he hp ih =>
    by_cases hnext : rest' ≠ [] ∨ e = ['\r', '\n']
    · rcases first_or_below hc ((canonical_row hx he hp hnext).symm.trans h) with ⟨after, rfl⟩ | ⟨front', rfl, h'⟩
      · rw [List.append_assoc] at h ⊢
        exact cutBehind_first hx h
      · exact cutBehind_below hx he hp (ih h')
    · have he' : rest' = [] ∧ (e = ['\n'] ∨ e = ['\r']) := by
        simp only [not_or, not_not] at hnext
        cases he with
        | feed => exact ⟨hnext.1, .inl rfl⟩
        | ret => exact ⟨hnext.1, .inr rfl⟩
        | both => exact absurd rfl hnext.2
      obtain ⟨rfl, he'⟩ := he'
      rw [List.append_nil] at h ⊢
      exact cutBehind_last hc hx (he'.imp_right .inl) h

/-- A place of a text is at an offset: whole lines stand in front of it, and as many characters of its own line as its
bytes amount to. -/
def Lang.Place.At (text : List Char) (p : Place) (k : Nat) : Prop :=
  ∃ i line n, p.line = i + 1 ∧ (sourceLines text)[i]? = some line ∧ n < line.length ∧ p.byte = byteLength (line.take n) ∧
    k = ((sourceLines text).take i).flatten.length + n

/-- A place is at one offset only. -/
theorem Lang.Place.At.unique {text : List Char} {p : Place} {k k' : Nat} (h : p.At text k) (h' : p.At text k') :
    k = k' := by
  obtain ⟨i, line, n, hi, hline, hn, hbyte, rfl⟩ := h
  obtain ⟨i', line', n', hi', hline', hn', hbyte', rfl⟩ := h'
  obtain rfl : i = i' := Nat.succ.inj (hi.symm.trans hi')
  obtain rfl : line = line' := Option.some.inj (hline.symm.trans hline')
  -- a longer front has more bytes
  have hlt {m m' : Nat} (hm : m < m') (hm' : m' < line.length) :
      byteLength (line.take m) < byteLength (line.take m') := by
    obtain ⟨d, rfl⟩ : ∃ d, m' = m + (d + 1) := ⟨m' - m - 1, by omega⟩
    have hpos := length_le_byteLength ((line.drop m).take (d + 1))
    rw [List.length_take, List.length_drop] at hpos
    rw [List.take_add, byteLength_append]
    omega
  rcases Nat.lt_trichotomy n n' with hlt' | rfl | hlt'
  · have := hlt hlt' hn'
    omega
  · rfl
  · have := hlt hlt' hn
    omega

namespace Cut

variable {code above row after : List Char} {c : Char}

/-- The line that is cut. -/
theorem sourceLines_eq (h : Cut code above row c after) : ∃ tail lines, tail ≠ [] ∧
    sourceLines code = sourceLines above ++ (row ++ tail) :: lines := by
  obtain ⟨tail, lines, htail, hlines⟩ := cutLines_begun isSourceBreak row.reverse (List.cons_ne_nil c after)
  have hrow : sourceLines (row ++ c :: after) = (row ++ tail) :: lines := by
    rw [sourceLines, cutLines_unbroken h.unbroken.ne_return, List.append_nil, hlines, List.reverse_reverse]
  refine ⟨tail, lines, htail, ?_⟩
  rw [h.text, List.append_assoc, ← hrow]
  rcases h.closed with rfl | ⟨d, hd, hb⟩
  · rfl
  · exact sourceLines_append hd hb h.parted

theorem at_offset {p : Place} (h : Cut code above row c after) (hline : p.line = (sourceLines above).length + 1)
    (hbyte : p.byte = byteLength row) : p.At code (above ++ row).length := by
  obtain ⟨tail, lines, htail, hlines⟩ := h.sourceLines_eq
  have hpos := List.length_pos_iff.mpr htail
  refine ⟨_, row ++ tail, row.length, hline, ?_, ?_, ?_, ?_⟩
  · rw [hlines, List.getElem?_append_right (Nat.le_refl _), Nat.sub_self]
    rfl
  · rw [List.length_append]
    omega
  · rw [List.take_left, hbyte]
  · rw [hlines, List.take_left, sourceLines, flatten_cutLines, List.length_append]
    rfl

end Cut

/-- A token that is no layout begins at a character of the code, and there its place is. -/
theorem exists_cut_of_token {code : List Char} {t : Token} (ht : t ∈ (TokenStream.ofText code).tokens)
    (hlayout : P.isLayout t.lexeme = false) : ∃ above row c after, Cut code above row c after ∧
      (P.spanOf t).start.line = (sourceLines above).length + 1 ∧ (P.spanOf t).start.byte = byteLength row := by
  obtain ⟨front, c, rest, hfront, hc, hbehind⟩ := TokenStream.stands_of_mem ht hlayout
  obtain ⟨above, row, after, hcut, hlines, hrow, -⟩ := cutBehind_of_canonical hfront hc
  refine ⟨above, row, c, after, hcut, ?_, ?_⟩
  · rw [hbehind.line, hlines]
  · rw [hbehind.byte, hrow]

/-- A statement that is an expression begins at a character of the code, and there its place is. -/
theorem exists_cut_of_parse {code : List Char} {bdfl : Bool} {body : List Stmt} {span : Span} {e : Expr}
    (h : (parse code bdfl).1 = .ok body) (hs : .expr span e ∈ body) : ∃ above row c after, Cut code above row c after ∧
      span.start.line = (sourceLines above).length + 1 ∧ span.start.byte = byteLength row := by
  obtain ⟨t, ht, hlayout, hstart⟩ := begun_of_parse h _ hs span e rfl
  exact hstart ▸ exists_cut_of_token ht hlayout

end Evalbox
