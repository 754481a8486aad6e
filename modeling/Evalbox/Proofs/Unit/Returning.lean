import Evalbox.Proofs.Results
import Evalbox.Proofs.Unit.Numbering
import Evalbox.Proofs.Unit.Offsets

/-!
# The edit that returns the last expression

The word goes in at the place of the last statement, counted in display lines where the place counts the lines of the
language. It gets to the right offset if every display break in front of the statement ends a line of the language, and
to an earlier one, or into the middle of a character, if another does (`returningBody_exact`).
-/

namespace Evalbox

open Text Lang

/-! ## Display lines and lines of the language -/

/-- A text has a display break that ends no line of the language. -/
def Torn (text : List Char) : Prop := ∃ c ∈ text, isDisplayBreak c = true ∧ isSourceBreak c = false

instance (text : List Char) : Decidable (Torn text) :=
  List.decidableBEx (fun c => isDisplayBreak c = true ∧ isSourceBreak c = false) text

section Lines

variable {text : List Char}

/-- Without other breaks the lines are the same. -/
theorem displayLines_of_not_torn (h : ¬Torn text) : displayLines text = sourceLines text := by
  refine cutLines_congr (fun c hc => ?_) []
  cases hs : isSourceBreak c with
  | true => exact displayBreak_of_source hs
  | false => exact Bool.eq_false_iff.mpr fun hd => h ⟨c, hc, hd, hs⟩

theorem length_displayLines_pos (h : text ≠ []) : 0 < (displayLines text).length := by
  obtain ⟨tail, lines, -, heq⟩ := cutLines_begun isDisplayBreak [] h
  rw [displayLines, heq]
  exact Nat.succ_pos _

/-- A break ends a line, and more text is another one. -/
theorem one_lt_length_displayLines {a b : List Char} {c : Char} (hc : isDisplayBreak c = true) (hr : c ≠ '\r')
    (hb : b ≠ []) : 1 < (displayLines (a ++ c :: b)).length := by
  have hp : Parted (a ++ [c]) b := fun h => absurd (by simpa using h) hr
  have hlines : displayLines (a ++ [c] ++ b) = displayLines (a ++ [c]) ++ displayLines b :=
    cutLines_append rfl List.getLast?_concat hc hp []
  have ha : 0 < (displayLines (a ++ [c])).length := length_displayLines_pos (by simp)
  have hb := length_displayLines_pos hb
  rw [← List.singleton_append, ← List.append_assoc, hlines, List.length_append]
  omega

theorem Text.RowEnd.source {e : List Char} (he : RowEnd e) : ∀ c ∈ e, isSourceBreak c = true := by
  cases he <;> simp [isSourceBreak]

/-- There are no fewer display lines than lines of the language. -/
theorem length_sourceLines_le (text : List Char) : (sourceLines text).length ≤ (displayLines text).length := by
  induction text using rows_induction with
  | nil => exact Nat.le_refl _
  | last x hx hne =>
    rw [sourceLines_open hx hne]
    exact length_displayLines_pos hne
  | row x e rest hx he hp ih =>
    have hpos := length_displayLines_pos (List.append_ne_nil_of_right_ne_nil x he.ne_nil)
    rw [sourceLines_cons hx he hp, displayLines_cons he hp, List.length_cons, List.length_append]
    omega

/-- Behind another break there are more of them. -/
theorem length_sourceLines_lt (ht : Torn text) {c : Char} (hc : text.getLast? = some c) (hb : isSourceBreak c = true) :
    (sourceLines text).length < (displayLines text).length := by
  induction text using rows_induction with
  | nil => cases hc
  | last x hx hne => exact absurd hb (by simp [hx c (List.mem_of_getLast? hc)])
  | row x e rest hx he hp ih =>
    obtain ⟨d, hd, hdisplay, hsource⟩ := ht
    rw [sourceLines_cons hx he hp, displayLines_cons he hp, List.length_cons, List.length_append]
    have hpos := length_displayLines_pos (List.append_ne_nil_of_right_ne_nil x he.ne_nil)
    have hle := length_sourceLines_le rest
    rcases List.mem_append.mp hd with hd | hd
    · rcases List.mem_append.mp hd with hd | hd
      · -- the row itself is two display lines
        obtain ⟨a, b, rfl⟩ := List.append_of_mem hd
        have hr : d ≠ '\r' := (hx.ne_return d hd).2
        have hlt := one_lt_length_displayLines hdisplay hr (a := a) (b := b ++ e)
          (List.append_ne_nil_of_right_ne_nil b he.ne_nil)
        rw [List.append_assoc, List.cons_append]
        omega
      · exact absurd hsource (by simp [he.source d hd])
    · have hc' : rest.getLast? = some c := by
        obtain ⟨e', rest, rfl⟩ := List.exists_cons_of_ne_nil (List.ne_nil_of_mem hd)
        simpa using hc
      have hlt := ih ⟨d, hd, hdisplay, hsource⟩ hc'
      omega

end Lines

/-! ## Where the word goes in -/

section Insertion

variable {code above row after : List Char} {c : Char} {p : Place}

/-- A code with the word in front of the character at an offset. -/
def returnAt (code : List Char) (k : Nat) : List Char := code.take k ++ "return ".toList ++ code.drop k

theorem insertAtByte_front (front rest text : List Char) :
    insertAtByte (front ++ rest) (byteLength front) text = .ok (front ++ text ++ rest) := by
  rw [insertAtByte, decode_take_front]
  dsimp only
  rw [List.drop_left]

theorem insertAtByte_ok {line text out : List Char} {byte : Nat} (h : insertAtByte line byte text = .ok out) :
    ∃ front rest, line = front ++ rest ∧ out = front ++ text ++ rest ∧ (byte = 0 → front = []) := by
  rw [insertAtByte] at h
  split at h
  · cases h
  · case _ front hfront =>
    obtain ⟨rest, rfl⟩ := decode_take hfront
    obtain rfl := Except.ok.inj h
    refine ⟨front, rest, rfl, by rw [List.drop_left], ?_⟩
    rintro rfl
    exact (Except.ok.inj hfront).symm

theorem returnAt_length (a b : List Char) : returnAt (a ++ b) a.length = a ++ "return ".toList ++ b := by
  rw [returnAt, List.take_left, List.drop_left]

/-- The word in a line of a code, behind the front of the line. -/
theorem returnAt_line {A B : List (List Char)} {front rest : List Char}
    (hrows : displayLines code = A ++ (front ++ rest) :: B) : returnAt code (A.flatten ++ front).length =
      A.flatten ++ (front ++ "return ".toList ++ rest) ++ B.flatten := by
  have hcode : code = A.flatten ++ front ++ (rest ++ B.flatten) := by
    have hflat := flatten_cutLines isDisplayBreak [] code
    rw [← displayLines, hrows] at hflat
    simpa using hflat.symm
  conv_lhs => rw [hcode, returnAt_length]
  simp

section Known

/-! The display lines around the place are known. -/

variable {body : List Stmt} {A B : List (List Char)} {line : List Char} (hparse : (parse code false).1 = .ok body)
  (hp : returnPlace? body = some p) (hrows : displayLines code = A ++ line :: B) (hline : p.line = A.length + 1)

include hparse hp hrows hline

theorem returningBody_eq : returningBody code =
    match insertAtByte line p.byte "return ".toList with
    | .error f => .error f
    | .ok edited => .ok (A.flatten ++ edited ++ B.flatten) := by
  have hindex : p.line - 1 = A.length := by omega
  rw [returningBody]
  cases hpair : parse code false with
  | mk r ws =>
    rw [hpair] at hparse
    dsimp only at hparse
    subst hparse
    simp only [hp, hrows, hindex]
    rw [List.getElem?_append_right (Nat.le_refl _), Nat.sub_self, List.getElem?_cons_zero]
    dsimp only
    cases insertAtByte line p.byte "return ".toList with
    | error f => rfl
    | ok edited => simp

/-- The word goes into the line behind its front, if the bytes of the place are those of the front. -/
theorem returningBody_front {front rest : List Char} (hfront : line = front ++ rest)
    (hbyte : p.byte = byteLength front) : returningBody code = .ok (returnAt code (A.flatten ++ front).length) := by
  rw [returningBody_eq hparse hp hrows hline, hfront, hbyte, insertAtByte_front, returnAt_line (hfront ▸ hrows)]

/-- The edit fails, or the word goes somewhere into the line. -/
theorem returningBody_somewhere : (∃ f, returningBody code = .error f) ∨
    ∃ front rest, line = front ++ rest ∧ (p.byte = 0 → front = []) ∧
      returningBody code = .ok (returnAt code (A.flatten ++ front).length) := by
  have heq := returningBody_eq hparse hp hrows hline
  cases hins : insertAtByte line p.byte "return ".toList with
  | error f =>
    rw [hins] at heq
    exact .inl ⟨f, heq⟩
  | ok out =>
    obtain ⟨front, rest, hfront, rfl, hzero⟩ := insertAtByte_ok hins
    rw [hins] at heq
    refine .inr ⟨front, rest, hfront, hzero, ?_⟩
    rw [heq, returnAt_line (hfront ▸ hrows)]

end Known

end Insertion

/-! ## The line that the word goes into -/

section Cuts

variable {code above row after : List Char} {c : Char}

theorem Torn.mono {a b : List Char} (h : Torn a) (hab : ∀ c ∈ a, c ∈ b) : Torn b := by
  obtain ⟨c, hc, hb⟩ := h
  exact ⟨c, hab c hc, hb⟩

/-- The lines above a cut end in a break of the language, which does not count. -/
theorem Cut.torn_above (h : Cut code above row c after) (ht : Torn above) : Torn (above ++ row).dropLast := by
  obtain ⟨d, hd, hdisplay, hsource⟩ := ht
  refine ⟨d, ?_, hdisplay, hsource⟩
  by_cases hrow : row = []
  · obtain ⟨e, he, hb⟩ := h.closed.resolve_left (List.ne_nil_of_mem hd)
    rw [← List.dropLast_append_getLast? e he] at hd
    rcases List.mem_append.mp hd with hd | hd
    · rwa [hrow, List.append_nil]
    · obtain rfl := List.mem_singleton.mp hd
      cases hb.symm.trans hsource
  · rw [List.dropLast_append_of_ne_nil hrow]
    exact List.mem_append_left _ hd

/-- A row is the front of its display line if it is not torn, its last character apart. -/
theorem displayLines_begun (hrow : Unbroken row) (ht : ¬Torn row.dropLast) (hne : after ≠ []) :
    ∃ rest lines, displayLines (row ++ after) = (row ++ rest) :: lines := by
  rcases List.eq_nil_or_concat row with rfl | ⟨front, d, rfl⟩
  · obtain ⟨rest, lines, -, heq⟩ := cutLines_begun isDisplayBreak [] hne
    exact ⟨rest, lines, heq⟩
  · rw [List.concat_eq_append] at hrow ht ⊢
    rw [List.dropLast_concat] at ht
    obtain ⟨hf, hd⟩ := List.forall_mem_append.mp hrow
    have hd := hd d (List.mem_singleton_self d)
    have hflat : ∀ c ∈ front, isDisplayBreak c = false ∧ c ≠ '\r' := fun c hc =>
      ⟨Bool.eq_false_iff.mpr fun h => ht ⟨c, hc, h, hf c hc⟩, (Unbroken.ne_return hf c hc).2⟩
    have hr : d ≠ '\r' := by
      rintro rfl
      cases hd
    rw [displayLines, List.append_assoc, cutLines_unbroken hflat, List.singleton_append,
      cutLines_cons fun h => absurd h hr]
    split
    · exact ⟨[], cutLines isDisplayBreak [] after, by simp⟩
    · obtain ⟨rest, lines, -, heq⟩ := cutLines_begun isDisplayBreak (d :: (front.reverse ++ [])) hne
      exact ⟨rest, lines, by rw [heq]; simp⟩

/-- If no other break stands in front of a cut, it is in the display line that has the number of its own line. -/
theorem Cut.displayLines_eq (h : Cut code above row c after) (ht : ¬Torn (above ++ row).dropLast) :
    ∃ A rest B, displayLines code = A ++ (row ++ rest) :: B ∧ A.flatten = above ∧
      A.length = (sourceLines above).length := by
  have habove : displayLines above = sourceLines above :=
    displayLines_of_not_torn fun h' => ht (h.torn_above h')
  have hrow : ¬Torn row.dropLast := fun h' => ht (h'.mono fun d hd => by
    rw [List.dropLast_append_of_ne_nil (List.ne_nil_of_mem (List.dropLast_subset row hd))]
    exact List.mem_append_right _ hd)
  obtain ⟨rest, lines, hlines⟩ := displayLines_begun h.unbroken hrow (List.cons_ne_nil c after)
  refine ⟨displayLines above, rest, lines, ?_, flatten_cutLines isDisplayBreak [] above, by rw [habove]⟩
  rw [h.text, List.append_assoc, ← hlines]
  rcases h.closed with rfl | ⟨d, hd, hb⟩
  · rfl
  · exact cutLines_append rfl hd (displayBreak_of_source hb) h.parted []

/-- A display line of the front of a code, whose last line ends in a break. -/
theorem displayLine_of_front {front rest : List Char} {d : Char} {i : Nat} (hd : front.getLast? = some d)
    (hb : isDisplayBreak d = true) (hp : Parted front rest) (hi : i < (displayLines front).length) :
    ∃ A line B, displayLines (front ++ rest) = A ++ line :: B ∧ A.length = i ∧ line ≠ [] ∧
      (A.flatten ++ line).length ≤ front.length := by
  have hlines : displayLines (front ++ rest) = displayLines front ++ displayLines rest := cutLines_append rfl hd hb hp []
  have hsplit : displayLines front =
      (displayLines front).take i ++ (displayLines front)[i] :: (displayLines front).drop (i + 1) := by
    rw [← List.drop_eq_getElem_cons hi, List.take_append_drop]
  refine ⟨(displayLines front).take i, (displayLines front)[i], (displayLines front).drop (i + 1) ++ displayLines rest,
    ?_, ?_, ?_, ?_⟩
  · rw [hlines, ← List.cons_append, ← List.append_assoc, ← hsplit]
  · rw [List.length_take]
    omega
  · exact ne_nil_of_mem_cutLines (List.getElem_mem hi)
  · have hflat := congrArg List.length (flatten_cutLines isDisplayBreak [] front)
    rw [← displayLines, hsplit] at hflat
    simp only [List.flatten_append, List.flatten_cons, List.length_append, List.reverse_nil, List.nil_append] at hflat
    rw [List.length_append]
    omega

/-- A cut row that is torn in front of its last character. -/
theorem Cut.torn_row (ht : Torn (above ++ row).dropLast) (habove : ¬Torn above) : ∃ a d b z,
    row = a ++ [d] ++ (b ++ [z]) ∧ isDisplayBreak d = true ∧ isSourceBreak d = false := by
  obtain ⟨d, hd, hdisplay, hsource⟩ := ht
  have hrow : row ≠ [] := by
    rintro rfl
    rw [List.append_nil] at hd
    exact habove ⟨d, List.dropLast_subset above hd, hdisplay, hsource⟩
  rw [List.dropLast_append_of_ne_nil hrow] at hd
  have hd : d ∈ row.dropLast := (List.mem_append.mp hd).resolve_left fun hd => habove ⟨d, hd, hdisplay, hsource⟩
  obtain ⟨a, b, hab⟩ := List.append_of_mem hd
  refine ⟨a, d, b, row.getLast hrow, ?_, hdisplay, hsource⟩
  conv_lhs => rw [← List.dropLast_append_getLast hrow, hab]
  simp

/-- What stands in front of a cut has a front that ends in a break and has more display lines than the cut has lines
above it. -/
structure Overfull (code above row front rest : List Char) (d : Char) : Prop where
  text : code = front ++ rest
  last : front.getLast? = some d
  isBreak : isDisplayBreak d = true
  parted : Parted front rest
  length_lt : (sourceLines above).length < (displayLines front).length
  length_le : front.length ≤ (above ++ row).length
  inside : row ≠ [] → front.length < (above ++ row).length

theorem Cut.overfull (h : Cut code above row c after) (ht : Torn (above ++ row).dropLast) :
    ∃ front rest d, Overfull code above row front rest d := by
  have happend : (above ++ row).length = above.length + row.length := List.length_append
  by_cases habove : Torn above
  · -- the lines above are too many
    have hne : above ≠ [] := by
      obtain ⟨d, hd, -⟩ := habove
      exact List.ne_nil_of_mem hd
    obtain ⟨d, hd, hb⟩ := h.closed.resolve_left hne
    refine ⟨above, row ++ c :: after, d, ?_, hd, displayBreak_of_source hb, h.parted,
      length_sourceLines_lt habove hd hb, by omega, fun hrow => ?_⟩
    · rw [h.text, List.append_assoc]
    · have hpos := List.length_pos_iff.mpr hrow
      omega
  · -- or the row is more than one line
    obtain ⟨a, d, b, z, rfl, hdisplay, hsource⟩ := Cut.torn_row ht habove
    have hr : d ≠ '\r' := by
      rintro rfl
      cases hsource
    have hlines : displayLines (above ++ (a ++ [d])) = displayLines above ++ displayLines (a ++ [d]) := by
      rcases h.closed with rfl | ⟨e, he, hb⟩
      · rfl
      · have hp := h.parted
        rw [List.append_assoc] at hp
        exact cutLines_append rfl he (displayBreak_of_source hb) hp.of_append []
    have hpos : 0 < (displayLines (a ++ [d])).length := length_displayLines_pos (by simp)
    have hle := length_sourceLines_le above
    have hlt : (above ++ (a ++ [d])).length < (above ++ (a ++ [d] ++ (b ++ [z]))).length := by
      simp only [List.length_append, List.length_singleton]
      omega
    refine ⟨above ++ (a ++ [d]), b ++ [z] ++ c :: after, d, ?_, by simp, hdisplay, ?_, ?_, hlt.le, fun _ => hlt⟩
    · rw [h.text]
      simp
    · exact fun hl => absurd (by simpa using hl) hr
    · rw [hlines, List.length_append]
      omega

/-- If another break stands in front of a cut, the display line with its number ends before it. -/
theorem Cut.displayLines_torn (h : Cut code above row c after) (ht : Torn (above ++ row).dropLast) :
    ∃ A line B, displayLines code = A ++ line :: B ∧ A.length = (sourceLines above).length ∧ line ≠ [] ∧
      (A.flatten ++ line).length ≤ (above ++ row).length ∧
        (row ≠ [] → (A.flatten ++ line).length < (above ++ row).length) := by
  obtain ⟨front, rest, d, ho⟩ := h.overfull ht
  obtain ⟨A, line, B, hlines, hlen, hne, hle⟩ := displayLine_of_front ho.last ho.isBreak ho.parted ho.length_lt
  rw [← ho.text] at hlines
  exact ⟨A, line, B, hlines, hlen, hne, hle.trans ho.length_le, fun hrow => hle.trans_lt (ho.inside hrow)⟩

end Cuts

/-! ## The edit of a code -/

/-- The last statement is an expression that begins at a place, and no `yield`. -/
def EndsAt (body : List Stmt) (p : Place) : Prop :=
  ∃ span e, body.getLast? = some (.expr span e) ∧ (∀ sp v, e ≠ .yield sp v) ∧ (∀ sp v, e ≠ .yieldFrom sp v) ∧
    p = span.start

theorem returnPlace?_eq_some {body : List Stmt} {p : Place} : returnPlace? body = some p ↔ EndsAt body p := by
  rw [returnPlace?]
  constructor
  · intro h
    split at h
    case h_1 | h_2 | h_4 => cases h
    case h_3 span e hy hf hlast =>
      exact ⟨span, e, hlast, fun sp v he => hy sp v (he ▸ rfl), fun sp v he => hf sp v (he ▸ rfl),
        (Option.some.inj h).symm⟩
  · rintro ⟨span, e, hlast, hy, hf, rfl⟩
    rw [hlast]
    split
    case h_1 heq => exact absurd (Stmt.expr.inj (Option.some.inj heq)).2 (hy _ _)
    case h_2 heq => exact absurd (Stmt.expr.inj (Option.some.inj heq)).2 (hf _ _)
    case h_3 heq => rw [(Stmt.expr.inj (Option.some.inj heq)).1]
    case h_4 h => exact absurd rfl (h span e)

/-- What the edit does with a code, where `k` is the offset of its last statement. The word goes in there, unless a
display break that ends no line of the language stands in front of it; a break as the last character does no harm. -/
structure Edited (code : List Char) (k : Nat) : Prop where
  exact_of_not_torn : ¬Torn (code.take k).dropLast → returningBody code = .ok (returnAt code k)
  early_of_torn : Torn (code.take k).dropLast →
    (∃ f, returningBody code = .error f) ∨ ∃ k' < k, returningBody code = .ok (returnAt code k')

/-- The edit of a code that ends in an expression, at the offset at which that begins. -/
theorem edited_of_endsAt {code : List Char} {body : List Stmt} {p : Place} (hparse : (parse code false).1 = .ok body)
    (hends : EndsAt body p) : ∃ k, p.At code k ∧ Edited code k := by
  have hplace := returnPlace?_eq_some.mpr hends
  obtain ⟨span, e, hlast, -, -, rfl⟩ := hends
  obtain ⟨above, row, c, after, hcut, hline, hbyte⟩ := exists_cut_of_parse hparse (List.mem_of_getLast? hlast)
  have htake : code.take (above ++ row).length = above ++ row := by rw [hcut.text, List.take_left]
  refine ⟨(above ++ row).length, hcut.at_offset hline hbyte, ?_, ?_⟩
  · intro ht
    rw [htake] at ht
    obtain ⟨A, rest, B, hlines, hflat, hlen⟩ := hcut.displayLines_eq ht
    have hline : span.start.line = A.length + 1 := by omega
    rw [returningBody_front hparse hplace hlines hline rfl hbyte, hflat]
  · intro ht
    rw [htake] at ht
    obtain ⟨A, line, B, hlines, hlen, hne, hle, hlt⟩ := hcut.displayLines_torn ht
    have hline : span.start.line = A.length + 1 := by omega
    refine (returningBody_somewhere hparse hplace hlines hline).imp_right ?_
    rintro ⟨front, rest, rfl, hzero, heq⟩
    refine ⟨(A.flatten ++ front).length, ?_, heq⟩
    have hpos := List.length_pos_iff.mpr hne
    by_cases hrow : row = []
    · -- the word goes to the start of its line
      subst hrow
      obtain rfl := hzero hbyte
      simp only [List.length_append, List.length_nil] at hle hpos ⊢
      omega
    · have hlt := hlt hrow
      simp only [List.length_append] at hlt ⊢
      omega

/-- The code is edited if it ends in an expression, at the offset at which that begins, and is left as it is else. -/
theorem returningBody_exact (code : List Char) :
    (∀ body p, (parse code false).1 = .ok body → EndsAt body p → ∃ k, p.At code k ∧ Edited code k) ∧
      ((∀ body p, (parse code false).1 = .ok body → ¬EndsAt body p) → returningBody code = .ok code) := by
  refine ⟨fun body p hparse hends => edited_of_endsAt hparse hends, fun hnone => ?_⟩
  rw [returningBody]
  cases hpair : parse code false with
  | mk r ws =>
    cases r with
    | error e => rfl
    | ok body =>
      cases hplace : returnPlace? body with
      | none => simp only [hplace]
      | some p => exact absurd (returnPlace?_eq_some.mp hplace) (hnone body p (by rw [hpair]))

theorem endsAt_of_bind {code : List Char} {p : Place}
    (h : (parse code false).1.toOption.bind returnPlace? = some p) :
    ∃ body, (parse code false).1 = .ok body ∧ EndsAt body p := by
  obtain ⟨body, hbody, hp⟩ := Option.bind_eq_some_iff.mp h
  exact ⟨body, ok_of_toOption hbody, returnPlace?_eq_some.mp hp⟩

/-- Behind characters of two bytes, and a line that ends in two characters. -/
theorem second_statement_returned : ∃ body p, (parse "a = 'é'\r\nb = 'ü'; a".toList false).1 = .ok body ∧
    EndsAt body p ∧ p.At "a = 'é'\r\nb = 'ü'; a".toList 18 ∧
      returningBody "a = 'é'\r\nb = 'ü'; a".toList = .ok "a = 'é'\r\nb = 'ü'; return a".toList := by
  have hplace : (parse "a = 'é'\r\nb = 'ü'; a".toList false).1.toOption.bind returnPlace? = some ⟨2, 9, 10⟩ := by
    decide +kernel
  have hat : Place.At "a = 'é'\r\nb = 'ü'; a".toList ⟨2, 9, 10⟩ 18 :=
    ⟨1, "b = 'ü'; a".toList, 9, rfl, by decide, by decide, by decide, by decide⟩
  obtain ⟨body, hparse, hends⟩ := endsAt_of_bind hplace
  obtain ⟨k, hk, hed⟩ := (returningBody_exact "a = 'é'\r\nb = 'ü'; a".toList).1 body _ hparse hends
  obtain rfl := hk.unique hat
  exact ⟨body, _, hparse, hends, hat, hed.exact_of_not_torn (by decide)⟩

/-- A form feed in a comment: the word goes into the comment, in front of the end of its line. Behind a wider character
it would go into the middle of that. -/
theorem form_feed_misplaces :
    (∃ body p, (parse "x = 1 #\x0c\nx".toList false).1 = .ok body ∧ EndsAt body p ∧
      p.At "x = 1 #\x0c\nx".toList 9 ∧ returnAt "x = 1 #\x0c\nx".toList 9 = "x = 1 #\x0c\nreturn x".toList ∧
        returningBody "x = 1 #\x0c\nx".toList = .ok "x = 1 #\x0creturn \nx".toList) ∧
      ∃ body p f, (parse "#\x0c€\nx;y".toList false).1 = .ok body ∧ EndsAt body p ∧
        returningBody "#\x0c€\nx;y".toList = .error f := by
  have hplace : (parse "x = 1 #\x0c\nx".toList false).1.toOption.bind returnPlace? = some ⟨2, 0, 0⟩ := by
    decide +kernel
  have hplace' : (parse "#\x0c€\nx;y".toList false).1.toOption.bind returnPlace? = some ⟨2, 2, 2⟩ := by
    decide +kernel
  have hnone : (returningBody "#\x0c€\nx;y".toList).toOption = none := by decide +kernel
  constructor
  · obtain ⟨body, hparse, hends⟩ := endsAt_of_bind hplace
    refine ⟨body, _, hparse, hends, ⟨1, "x".toList, 0, rfl, by decide, by decide, by decide, by decide⟩, by decide, ?_⟩
    exact ok_of_toOption (by decide +kernel)
  · obtain ⟨body, hparse, hends⟩ := endsAt_of_bind hplace'
    cases hret : returningBody "#\x0c€\nx;y".toList with
    | error f => exact ⟨body, _, f, hparse, hends, rfl⟩
    | ok text =>
      rw [hret] at hnone
      cases hnone

end Evalbox
