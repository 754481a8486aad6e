import Evalbox.Text.Lines
import Mathlib.Data.List.TakeWhile

/-!
# Rows of a text

A row is a line of the snippet language without its terminator. Texts are taken apart row by row
(`rows_induction`), and what stands behind a terminator has the rows that it has alone (`sourceLines_append`). A
line feed is counted with each row but for those that a lone carriage return ends (`length_rows`).
-/

namespace Evalbox.Text

/-- The rows of a text. -/
def rows (text : List Char) : List (List Char) := (sourceLines text).map (dropTerminator isSourceBreak)

/-- How many carriage returns there are that no line feed follows. -/
def loneReturns : List Char → Nat
  | [] => 0
  | '\r' :: '\n' :: rest => loneReturns rest
  | c :: rest => (if c = '\r' then 1 else 0) + loneReturns rest

/-- What ends a row. -/
inductive RowEnd : List Char → Prop
  | feed : RowEnd ['\n']
  | ret : RowEnd ['\r']
  | both : RowEnd ['\r', '\n']

/-- There is no line end in a text. -/
def Unbroken (text : List Char) : Prop := ∀ c ∈ text, isSourceBreak c = false

instance (text : List Char) : Decidable (Unbroken text) :=
  List.decidableBAll (fun c => isSourceBreak c = false) text

/-- A text does not go on with the line feed of a carriage return. -/
def Parted (front rest : List Char) : Prop := front.getLast? = some '\r' → rest.head? ≠ some '\n'

theorem Parted.tail {c : Char} {front rest : List Char} (hf : front ≠ []) (h : Parted (c :: front) rest) :
    Parted front rest := fun hl => h (by rw [List.getLast?_cons_of_ne_nil hf, hl])

theorem Parted.of_append {front a b : List Char} (h : Parted front (a ++ b)) : Parted front a := fun hr hn =>
  h hr (by rw [List.head?_append, hn]; rfl)

section Cutting

variable {isBreak : Char → Bool} {c : Char} {rest : List Char}

/-- Cutting a text into lines loses nothing. -/
theorem flatten_cutLines (isBreak : Char → Bool) (line text : List Char) :
    (cutLines isBreak line text).flatten = line.reverse ++ text := by
  fun_induction cutLines isBreak line text with
  | case1 line h => simp_all
  | case2 line h => simp
  | case3 line rest h ih => simp [ih]
  | case4 line rest h ih => simp [ih]
  | case5 line c rest h hb ih => simp [ih]
  | case6 line c rest h hb ih => simp [ih]

/-- One character is cut off or not, unless it is one of a pair. -/
theorem cutLines_cons (h : c = '\r' → rest.head? ≠ some '\n') (line : List Char) :
    cutLines isBreak line (c :: rest) =
      if isBreak c then (c :: line).reverse :: cutLines isBreak [] rest
      else cutLines isBreak (c :: line) rest := by
  refine cutLines.eq_3 _ _ _ _ fun rest' hc hr => ?_
  exact h hc (by rw [hr]; rfl)

/-- A line that is begun is finished first. -/
theorem cutLines_unbroken {x : List Char} (hx : ∀ c ∈ x, isBreak c = false ∧ c ≠ '\r') (line rest : List Char) :
    cutLines isBreak line (x ++ rest) = cutLines isBreak (x.reverse ++ line) rest := by
  induction x generalizing line with
  | nil => rfl
  | cons c x ih =>
    obtain ⟨hb, hr⟩ := hx c List.mem_cons_self
    rw [List.cons_append, cutLines_cons (fun h => absurd h hr), hb, if_neg Bool.false_ne_true,
      ih fun d hd => hx d (List.mem_cons_of_mem c hd)]
    simp

/-- Lines are not empty. -/
theorem ne_nil_of_mem_cutLines {line text l : List Char} (h : l ∈ cutLines isBreak line text) : l ≠ [] := by
  fun_induction cutLines isBreak line text with
  | case1 => cases h
  | case2 line hne => simp_all
  | case4 _ _ _ ih | case6 _ _ _ _ _ ih => exact ih h
  | case3 _ _ _ ih | case5 _ _ _ _ _ ih =>
    rcases List.mem_cons.mp h with rfl | h
    · simp
    · exact ih h

/-- Breaks that do not occur do not matter. -/
theorem cutLines_congr {isBreak' : Char → Bool} {text : List Char} (h : ∀ c ∈ text, isBreak c = isBreak' c)
    (line : List Char) : cutLines isBreak line text = cutLines isBreak' line text := by
  fun_induction cutLines isBreak line text with
  | case1 line hl => rw [cutLines, if_pos hl]
  | case2 line hl => rw [cutLines, if_neg hl]
  | case3 line rest hr ih => rw [cutLines, if_pos (by simpa [← h]), ih fun c hc => h c (by simp [hc])]
  | case4 line rest hr ih => rw [cutLines, if_neg (by simpa [← h] using hr), ih fun c hc => h c (by simp [hc])]
  | case5 line c rest hd hb ih =>
    rw [cutLines.eq_3 _ _ _ _ hd, if_pos (by simpa [← h]), ih fun c hc => h c (by simp [hc])]
  | case6 line c rest hd hb ih =>
    rw [cutLines.eq_3 _ _ _ _ hd, if_neg (by simpa [← h] using hb), ih fun c hc => h c (by simp [hc])]

/-- A line that is begun goes on where there is more text. -/
theorem cutLines_begun (isBreak : Char → Bool) (line : List Char) {text : List Char} (h : text ≠ []) :
    ∃ tail lines, tail ≠ [] ∧ cutLines isBreak line text = (line.reverse ++ tail) :: lines := by
  fun_induction cutLines isBreak line text with
  | case1 | case2 => exact absurd rfl h
  | case3 line rest => exact ⟨['\r', '\n'], cutLines isBreak [] rest, by simp, by simp⟩
  | case4 line rest hr ih =>
    cases rest with
    | nil => exact ⟨['\r', '\n'], [], by simp, by simp [cutLines]⟩
    | cons d rest =>
      obtain ⟨tail, lines, -, heq⟩ := ih (List.cons_ne_nil d rest)
      exact ⟨'\r' :: '\n' :: tail, lines, by simp, by simp [heq]⟩
  | case5 line c rest => exact ⟨[c], cutLines isBreak [] rest, by simp, by simp⟩
  | case6 line c rest hd hb ih =>
    cases rest with
    | nil => exact ⟨[c], [], by simp, by simp [cutLines]⟩
    | cons d rest =>
      obtain ⟨tail, lines, -, heq⟩ := ih (List.cons_ne_nil d rest)
      exact ⟨c :: tail, lines, by simp, by simp [heq]⟩

/-- Behind a break the next line begins. -/
theorem cutLines_append (hr : isBreak '\r' = true) {front : List Char} (hc : front.getLast? = some c)
    (hb : isBreak c = true) (hp : Parted front rest) (line : List Char) :
    cutLines isBreak line (front ++ rest) = cutLines isBreak line front ++ cutLines isBreak [] rest := by
  -- the induction follows how the front is cut
  fun_induction cutLines isBreak line front with
  | case1 line h => cases hc
  | case2 line h => cases hc
  | case3 line front hr' ih =>
    rw [List.cons_append, List.cons_append, cutLines, if_pos hr, List.cons_append]
    cases front with
    | nil => simp [cutLines]
    | cons d front =>
      rw [ih (by simpa using hc) ((hp.tail (by simp)).tail (by simp))]
  | case4 line front hr' ih => exact absurd hr hr'
  | case5 line d front hd hb' ih =>
    cases front with
    | nil =>
      rw [List.cons_append, List.nil_append, cutLines_cons (fun h => hp (by rw [h]; rfl)), if_pos hb']
      simp [cutLines]
    | cons e front =>
      have hne : d = '\r' → (e :: front ++ rest).head? ≠ some '\n' := by
        rintro rfl he
        exact hd front rfl (by rw [Option.some.inj he])
      rw [List.cons_append, cutLines_cons hne, if_pos hb', ih (by simpa using hc) (hp.tail (by simp)),
        List.cons_append]
  | case6 line d front hd hb' ih =>
    cases front with
    | nil =>
      obtain rfl : d = c := by simpa using hc
      exact absurd hb hb'
    | cons e front =>
      have hne : d = '\r' → (e :: front ++ rest).head? ≠ some '\n' := by
        rintro rfl he
        exact hd front rfl (by rw [Option.some.inj he])
      rw [List.cons_append, cutLines_cons hne, if_neg hb', ih (by simpa using hc) (hp.tail (by simp))]

end Cutting

/-! ## Lines one by one -/

/-- What ends a line. -/
inductive LineEnd (isBreak : Char → Bool) : List Char → Prop
  | one {c : Char} : isBreak c = true → LineEnd isBreak [c]
  | both : LineEnd isBreak ['\r', '\n']

section Lines

variable {isBreak : Char → Bool} {x e rest : List Char}

theorem LineEnd.parted_append (he : LineEnd isBreak e) (x : List Char) (hp : Parted e rest) :
    Parted (x ++ e) rest := by
  intro h
  cases he with
  | one hc => exact hp (by simpa using h)
  | both => simp at h

theorem ne_return_of_not_break (hr : isBreak '\r' = true) (hx : ∀ c ∈ x, isBreak c = false) :
    ∀ c ∈ x, isBreak c = false ∧ c ≠ '\r' := by
  intro c hc
  refine ⟨hx c hc, ?_⟩
  rintro rfl
  exact nomatch (hx _ hc).symm.trans hr

/-- A line without its end is the last one. -/
theorem cutLines_open (hr : isBreak '\r' = true) (hx : ∀ c ∈ x, isBreak c = false) (hne : x ≠ []) :
    cutLines isBreak [] x = [x] := by
  have h := cutLines_unbroken (ne_return_of_not_break hr hx) [] []
  rw [List.append_nil, List.append_nil] at h
  rw [h]
  simp [cutLines, hne]

theorem cutLines_line (hr : isBreak '\r' = true) (hx : ∀ c ∈ x, isBreak c = false) (he : LineEnd isBreak e) :
    cutLines isBreak [] (x ++ e) = [x ++ e] := by
  rw [cutLines_unbroken (ne_return_of_not_break hr hx)]
  cases he with
  | one hc =>
    have hnil : ∀ c, c = '\r' → ([] : List Char).head? ≠ some '\n' := by simp
    rw [cutLines_cons (hnil _), if_pos hc]
    simp [cutLines]
  | both => simp [cutLines, hr]

theorem cutLines_line_append (hr : isBreak '\r' = true) (hn : isBreak '\n' = true) (hx : ∀ c ∈ x, isBreak c = false)
    (he : LineEnd isBreak e) (hp : Parted e rest) :
    cutLines isBreak [] (x ++ e ++ rest) = (x ++ e) :: cutLines isBreak [] rest := by
  have hc : ∃ c, (x ++ e).getLast? = some c ∧ isBreak c = true := by
    cases he with
    | one hc => exact ⟨_, List.getLast?_concat, hc⟩
    | both => exact ⟨'\n', by simp, hn⟩
  obtain ⟨c, hc, hb⟩ := hc
  rw [cutLines_append hr hc hb (he.parted_append x hp), cutLines_line hr hx he]
  rfl

/-- A text is empty, or a line without an end, or a line with its end in front of another text. -/
theorem lines_induction (isBreak : Char → Bool) {motive : List Char → Prop} (nil : motive [])
    (last : ∀ x, (∀ c ∈ x, isBreak c = false) → x ≠ [] → motive x)
    (line : ∀ x e rest, (∀ c ∈ x, isBreak c = false) → LineEnd isBreak e → Parted e rest → motive rest →
      motive (x ++ e ++ rest))
    (text : List Char) : motive text := by
  -- by the length of the text: the first line is what stands in front of the first break
  induction hn : text.length using Nat.strongRecOn generalizing text with
  | ind n ih =>
    have hx : ∀ c ∈ text.takeWhile fun c => !isBreak c, isBreak c = false := fun c hc => by
      simpa using List.mem_takeWhile_imp hc
    have ht := List.takeWhile_append_dropWhile (p := fun c => !isBreak c) (l := text)
    cases hd : text.dropWhile fun c => !isBreak c with
    | nil =>
      rw [hd, List.append_nil] at ht
      rw [ht] at hx
      by_cases hne : text = []
      · exact hne ▸ nil
      · exact last text hx hne
    | cons c tail =>
      have hc : isBreak c = true := by
        have h := List.head?_dropWhile_not (fun c => !isBreak c) text
        rw [hd] at h
        simpa using h
      rw [hd] at ht
      have hlen := congrArg List.length ht
      simp only [List.length_append, List.length_cons] at hlen
      have hcut : ∃ e rest, LineEnd isBreak e ∧ Parted e rest ∧ c :: tail = e ++ rest ∧ e ≠ [] := by
        by_cases hf : c = '\r' ∧ tail.head? = some '\n'
        · obtain ⟨rfl, hf⟩ := hf
          obtain ⟨rest, rfl⟩ := List.head?_eq_some_iff.mp hf
          exact ⟨['\r', '\n'], rest, .both, by simp [Parted], rfl, by simp⟩
        · refine ⟨[c], tail, .one hc, fun h ht => hf ⟨?_, ht⟩, rfl, by simp⟩
          simpa using h
      obtain ⟨e, rest, he, hp, hce, hne⟩ := hcut
      have hpos := List.length_pos_iff.mpr hne
      have hlen' := congrArg List.length hce
      simp only [List.length_append, List.length_cons] at hlen'
      have hrest := ih rest.length (by omega) rest rfl
      rw [← ht, hce, ← List.append_assoc]
      exact line _ e rest hx he hp hrest

end Lines

/-! ## Rows one by one -/

variable {x e rest : List Char}

theorem RowEnd.ne_nil (h : RowEnd e) : e ≠ [] := by cases h <;> simp

theorem Unbroken.append {y : List Char} (h : Unbroken x) (h' : Unbroken y) : Unbroken (x ++ y) :=
  List.forall_mem_append.mpr ⟨h, h'⟩

theorem Unbroken.ne_return (h : Unbroken x) : ∀ c ∈ x, isSourceBreak c = false ∧ c ≠ '\r' := by
  intro c hc
  refine ⟨h c hc, ?_⟩
  rintro rfl
  exact absurd (h _ hc) (by decide)

/-- A row without its end is the last one. -/
theorem sourceLines_open (hx : Unbroken x) (hne : x ≠ []) : sourceLines x = [x] := cutLines_open rfl hx hne

theorem RowEnd.lineEnd (he : RowEnd e) : LineEnd isSourceBreak e := by
  cases he with
  | feed => exact .one rfl
  | ret => exact .one rfl
  | both => exact .both

/-- What stands behind a terminator has its own lines. -/
theorem sourceLines_append {front : List Char} {c : Char} (hc : front.getLast? = some c)
    (hb : isSourceBreak c = true) (hp : Parted front rest) :
    sourceLines (front ++ rest) = sourceLines front ++ sourceLines rest :=
  cutLines_append rfl hc hb hp []

theorem RowEnd.getLast? (he : RowEnd e) (x : List Char) :
    ∃ c, (x ++ e).getLast? = some c ∧ isSourceBreak c = true := by
  cases he
  · exact ⟨'\n', by simp, rfl⟩
  · exact ⟨'\r', by simp, rfl⟩
  · exact ⟨'\n', by simp, rfl⟩

theorem RowEnd.parted_append (he : RowEnd e) (x : List Char) (hp : Parted e rest) : Parted (x ++ e) rest :=
  he.lineEnd.parted_append x hp

theorem sourceLines_cons (hx : Unbroken x) (he : RowEnd e) (hp : Parted e rest) :
    sourceLines (x ++ e ++ rest) = (x ++ e) :: sourceLines rest :=
  cutLines_line_append rfl rfl hx he.lineEnd hp

theorem LineEnd.rowEnd (he : LineEnd isSourceBreak e) : RowEnd e := by
  cases he with
  | one hc =>
    rcases (by simpa [isSourceBreak] using hc : _ = '\n' ∨ _ = '\r') with rfl | rfl
    · exact .feed
    · exact .ret
  | both => exact .both

/-- A text is empty, or a row without an end, or a row with its end in front of another text. -/
theorem rows_induction {motive : List Char → Prop} (nil : motive [])
    (last : ∀ x, Unbroken x → x ≠ [] → motive x)
    (row : ∀ x e rest, Unbroken x → RowEnd e → Parted e rest → motive rest → motive (x ++ e ++ rest))
    (text : List Char) : motive text :=
  lines_induction isSourceBreak nil last (fun x e rest hx he => row x e rest hx he.rowEnd) text

/-! ## What rows are -/

/-- Taking the end off a row leaves the row. -/
theorem dropTerminator_row (hx : Unbroken x) (he : RowEnd e) : dropTerminator isSourceBreak (x ++ e) = x := by
  cases he with
  | feed =>
    -- no carriage return stands in front of the line feed
    have hr : ∀ before, x.reverse ≠ '\r' :: before := by
      intro before h
      have hm : '\r' ∈ x := List.mem_reverse.mp (h ▸ List.mem_cons_self)
      exact (hx.ne_return _ hm).2 rfl
    rw [dropTerminator, List.reverse_append]
    simp only [List.reverse_cons, List.reverse_nil, List.nil_append, List.cons_append]
    split
    case h_1 before h => exact absurd (List.cons.inj h).2 (hr before)
    case h_2 c before _ h =>
      obtain ⟨rfl, rfl⟩ := List.cons.inj h
      simp [isSourceBreak]
    case h_3 h => cases h
  | ret => simp [dropTerminator, isSourceBreak]
  | both => simp [dropTerminator, isSourceBreak]

theorem dropTerminator_open (hx : Unbroken x) : dropTerminator isSourceBreak x = x := by
  rcases List.eq_nil_or_concat x with rfl | ⟨y, c, rfl⟩
  · rfl
  · have hc : isSourceBreak c = false := hx c (by simp)
    have hn : c ≠ '\n' := by
      rintro rfl
      exact absurd hc (by decide)
    rw [List.concat_eq_append, dropTerminator, List.reverse_append]
    simp only [List.reverse_cons, List.reverse_nil, List.nil_append, List.cons_append]
    split
    case h_1 before h => exact absurd (List.cons.inj h).1 hn
    case h_2 d before _ h =>
      obtain ⟨rfl, rfl⟩ := List.cons.inj h
      simp [hc]
    case h_3 h => cases h

theorem rows_open (hx : Unbroken x) (hne : x ≠ []) : rows x = [x] := by
  rw [rows, sourceLines_open hx hne, List.map_singleton, dropTerminator_open hx]

theorem rows_cons (hx : Unbroken x) (he : RowEnd e) (hp : Parted e rest) : rows (x ++ e ++ rest) = x :: rows rest := by
  rw [rows, sourceLines_cons hx he hp, List.map_cons, dropTerminator_row hx he, rows]

theorem rows_row (hx : Unbroken x) (he : RowEnd e) : rows (x ++ e) = [x] := by
  have hp : Parted e [] := fun _ => by simp
  have h := rows_cons hx he hp
  rwa [List.append_nil] at h

/-- Behind a line feed other rows begin. -/
theorem rows_append {front : List Char} (hc : front = [] ∨ front.getLast? = some '\n') (rest : List Char) :
    rows (front ++ rest) = rows front ++ rows rest := by
  rcases hc with rfl | hc
  · rfl
  · have hp : Parted front rest := fun h => by
      rw [hc] at h
      cases h
    rw [rows, sourceLines_append hc rfl hp, List.map_append, rows, rows]

/-- A line feed that closes a text closes its last row. -/
theorem rows_close {text : List Char} (hne : text ≠ []) (hl : text.getLast? ≠ some '\n') :
    rows (text ++ ['\n']) = rows text := by
  induction text using rows_induction with
  | nil => exact absurd rfl hne
  | last x hx hne => rw [rows_row hx .feed, rows_open hx hne]
  | row x e rest hx he hp ih =>
    cases rest with
    | nil =>
      rw [List.append_nil] at hl ⊢
      cases he with
      | ret =>
        have h := rows_row hx .both
        rw [rows_row hx .ret, ← h, List.append_assoc]
        rfl
      | feed => exact absurd (by simp) hl
      | both => exact absurd (by simp) hl
    | cons c rest =>
      have hp' : Parted e (c :: rest ++ ['\n']) := fun h => hp h
      rw [List.append_assoc, rows_cons hx he hp', ih (by simp) (by simpa using hl), rows_cons hx he hp]

/-! ## How many rows there are -/

theorem loneReturns_unbroken (hx : Unbroken x) (rest : List Char) : loneReturns (x ++ rest) = loneReturns rest := by
  induction x with
  | nil => rfl
  | cons c x ih =>
    have hc : c ≠ '\r' := (hx.ne_return c List.mem_cons_self).2
    rw [List.cons_append, loneReturns.eq_3 _ _ fun _ h _ => hc h, if_neg hc, Nat.zero_add,
      ih fun d hd => hx d (List.mem_cons_of_mem c hd)]

theorem count_unbroken (hx : Unbroken x) : x.count '\n' = 0 :=
  List.count_eq_zero.mpr fun h => absurd (hx _ h) (by decide)

/-- The end of a row is a line feed, or a lone carriage return. -/
theorem count_rowEnd (he : RowEnd e) (hp : Parted e rest) :
    (e ++ rest).count '\n' + loneReturns (e ++ rest) = rest.count '\n' + loneReturns rest + 1 := by
  cases he with
  | feed =>
    rw [List.cons_append, List.nil_append, List.count_cons_self, loneReturns.eq_3 _ _ (by simp), if_neg (by decide)]
    omega
  | ret =>
    have hf : ∀ rest', rest ≠ '\n' :: rest' := fun rest' h => hp rfl (by rw [h]; rfl)
    rw [List.cons_append, List.nil_append, List.count_cons_of_ne (by decide),
      loneReturns.eq_3 _ _ fun rest' _ h => hf rest' h, if_pos rfl]
    omega
  | both =>
    rw [List.cons_append, List.cons_append, List.nil_append, List.count_cons_of_ne (by decide),
      List.count_cons_self, loneReturns]
    omega

/-- Each row of a closed text has its line feed, or it ends in a lone carriage return. -/
theorem length_rows {text : List Char} (hc : text = [] ∨ ∃ c, text.getLast? = some c ∧ isSourceBreak c = true) :
    (rows text).length = text.count '\n' + loneReturns text := by
  induction text using rows_induction with
  | nil => rfl
  | last x hx hne =>
    obtain ⟨c, hl, hb⟩ := hc.resolve_left hne
    exact absurd ((hx c (List.mem_of_getLast? hl)).symm.trans hb) Bool.false_ne_true
  | row x e rest hx he hp ih =>
    have hc' : rest = [] ∨ ∃ c, rest.getLast? = some c ∧ isSourceBreak c = true := by
      cases rest with
      | nil => exact .inl rfl
      | cons c rest => exact .inr (by simpa using hc)
    rw [rows_cons hx he hp, List.length_cons, ih hc', List.append_assoc, List.count_append, count_unbroken hx,
      loneReturns_unbroken hx, Nat.zero_add, count_rowEnd he hp]

/-- A text without lone carriage returns does not end in one. -/
theorem getLast?_ne_return {text : List Char} (h : loneReturns text = 0) : text.getLast? ≠ some '\r' := by
  fun_induction loneReturns text with
  | case1 => exact nofun
  | case2 rest ih =>
    cases rest with
    | nil => decide
    | cons d rest => exact ih h
  | case3 c rest _ ih =>
    obtain ⟨hc, hrest⟩ := Nat.add_eq_zero_iff.mp h
    cases rest with
    | nil =>
      rintro ⟨⟩
      exact absurd hc (by decide)
    | cons d rest => exact ih hrest

end Evalbox.Text
