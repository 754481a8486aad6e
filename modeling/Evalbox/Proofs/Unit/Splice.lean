import Evalbox.Proofs.Lang.Places
import Evalbox.Proofs.Unit.Along
import Evalbox.Proofs.Unit.Begins
import Evalbox.Proofs.Unit.Returning

/-!
# A word in front of a statement

What a scanner reads in front of a statement is the same when a word goes in there, and so is what it reads behind that
word (`spells_spliced`). The tokens in front must be closed: behind each of them a row or a statement ends, or the token
itself is such an end (`Rested`). So a unit has the tokens of its code, with the word `return` in front of the
expression that the code ends in (`wrap_keeps_tokens`).
-/

namespace Evalbox

open Text Lang Scanner

section Steps

variable {u v : List Char} {s s' w : Scanner} {t : Option Token} {blank : Bool}

theorem step_begun (h : step s = .ok (t, s')) :
    ∃ s₁ blank, Scanner.begin s = .ok (s₁, blank) ∧ emit s₁ blank = .ok (t, s') := by
  rw [step] at h
  split at h
  · cases h
  · exact ⟨_, _, ‹_›, h⟩

theorem emit_suffix (h : emit s blank = .ok (t, s')) : s'.reader.rest <:+ s.reader.rest := by
  rw [emit] at h
  split at h
  · obtain ⟨-, rfl⟩ := Prod.mk.inj (Except.ok.inj h)
    exact List.suffix_refl _
  · split at h
    · obtain ⟨-, rfl⟩ := Prod.mk.inj (Except.ok.inj h)
      exact List.suffix_refl _
    · exact inLine_suffix (Nat.lt_succ_self _) h

theorem step_suffix (h : step s = .ok (t, s')) : s'.reader.rest <:+ s.reader.rest := by
  obtain ⟨s₁, blank, hb, he⟩ := step_begun h
  exact (emit_suffix he).trans (begin_frame hb).1

theorem Lang.Scanner.Reads.suffix {ts : List Token} (h : Reads s ts s') : s'.reader.rest <:+ s.reader.rest := by
  induction h with
  | here => exact List.suffix_refl _
  | pass hs _ ih | token hs _ _ ih => exact ih.trans (step_suffix hs)

/-- What comes behind the start of a row is an indent or a dedent, or is read inside the line. -/
theorem emit_inside (h : emit s blank = .ok (t, s')) (ht : ∀ u, t = some u → u.lexeme ≠ .indent ∧ u.lexeme ≠ .dedent) :
    s.pending = 0 ∧ inLine (s.reader.rest.length + 1) s blank = .ok (t, s') := by
  rw [emit] at h
  split at h
  · obtain ⟨rfl, -⟩ := Prod.mk.inj (Except.ok.inj h)
    exact absurd rfl (ht _ rfl).2
  · split at h
    · obtain ⟨rfl, -⟩ := Prod.mk.inj (Except.ok.inj h)
      exact absurd rfl (ht _ rfl).1
    · exact ⟨by omega, h⟩

theorem emit_of_pending (hp : s.pending = 0) : emit s blank = inLine (s.reader.rest.length + 1) s blank := by
  rw [emit, if_neg (by omega), if_neg (by omega)]

/-- Both scanners do the same step, if it ends in the common text. -/
theorem Along.step (hread : Readable u v t) (h : Along u v s w) (hs : Scanner.step s = .ok (t, s'))
    (hu : u <:+ s'.reader.rest) : ∃ t' w', Scanner.step w = .ok (t', w') ∧ t'.map (·.lexeme) = t.map (·.lexeme) ∧
      Along u v s' w' := by
  obtain ⟨s₁, blank, hb, he⟩ := step_begun hs
  obtain ⟨w₁, hbw, h₁⟩ := h.begin hread.tails hb (hu.trans (emit_suffix he))
  rw [Scanner.step, hbw]
  dsimp only
  rw [emit] at he ⊢
  rw [h₁.pending]
  split at he
  · obtain ⟨rfl, rfl⟩ := Prod.mk.inj (Except.ok.inj he)
    exact ⟨_, _, if_pos ‹_›, rfl, h₁.rest, h₁.ended, h₁.start, rfl, h₁.levels, h₁.brackets⟩
  · rw [if_neg ‹_›]
    split at he
    · obtain ⟨rfl, rfl⟩ := Prod.mk.inj (Except.ok.inj he)
      exact ⟨_, _, if_pos ‹_›, rfl, h₁.rest, h₁.ended, h₁.start, rfl, h₁.levels, h₁.brackets⟩
    · rw [if_neg ‹_›]
      exact h₁.inLine hread (Nat.lt_succ_self _) (Nat.lt_succ_self _) he hu

/-- In front of the same text both scanners spell the same. -/
theorem Along.spells {ls : List Lexeme} (h : Along [] [] s w) (hs : Spells s ls) : Spells w ls := by
  induction hs generalizing w with
  | finish hstep ht =>
    obtain ⟨t', w', hw, hlexeme, -⟩ := h.step (.inl .nil) hstep List.nil_suffix
    obtain ⟨u, rfl, hu⟩ := Option.map_eq_some_iff.mp hlexeme
    exact .finish hw (hu.trans ht)
  | pass hstep _ ih =>
    obtain ⟨t', w', hw, hlexeme, h'⟩ := h.step (.inl .nil) hstep List.nil_suffix
    obtain rfl : t' = none := Option.map_eq_none_iff.mp hlexeme
    exact .pass hw (ih h')
  | token hstep ht _ ih =>
    obtain ⟨t', w', hw, hlexeme, h'⟩ := h.step (.inl .nil) hstep List.nil_suffix
    obtain ⟨u, rfl, hu⟩ := Option.map_eq_some_iff.mp hlexeme
    have hnext := Spells.token hw (fun hfin => ht (hu.symm.trans hfin)) (ih h')
    rwa [hu] at hnext

theorem Lang.Scanner.Spells.of_step {ls : List Lexeme} (h : Scanner.step s = Scanner.step w) (hs : Spells s ls) :
    Spells w ls := by
  cases hs with
  | finish hstep ht => exact .finish (h ▸ hstep) ht
  | pass hstep hr => exact .pass (h ▸ hstep) hr
  | token hstep ht hr => exact .token (h ▸ hstep) ht hr

end Steps

section Front

variable {u v : List Char} {s s' w : Scanner} {ts : List Token}

theorem Lang.Lexeme.not_wall_of_begins {l : Lexeme} (h : l.begins = true) : l.isWall = false := by
  cases l with
  | symbol sym => cases sym <;> first | rfl | cases h
  | _ => first | rfl | cases h

/-- Tokens that end a row or a statement. -/
def Lang.Lexeme.closes : Lexeme → Bool
  | .newline | .symbol .semi => true
  | _ => false

/-- Every token is no part of an expression, or an end of a row or of a statement comes behind it. -/
def Rested : List Lexeme → Prop
  | [] => True
  | l :: ls => (l.isWall = true ∨ ∃ l' ∈ ls, l'.closes = true) ∧ Rested ls

theorem Ended.of_suffix (h : Ended v) (hu : u <:+ v) : Ended u := by
  obtain ⟨front, rfl⟩ := hu
  exact h.suffix

theorem Lang.Lexeme.wall_of_closes {l : Lexeme} (h : l.closes = true) : l.isWall = true := by
  cases l with
  | symbol sym => cases sym <;> first | rfl | cases h
  | _ => first | rfl | cases h

/-- A row or a statement ends with the character that says so. -/
theorem stop_of_closes {t : Token} (hs : step s = .ok (some t, s')) (he : Ended s.reader.rest)
    (hcloses : t.lexeme.closes = true) : ∃ c, (c = '\n' ∨ c = ';') ∧ c :: s'.reader.rest <:+ s.reader.rest := by
  obtain ⟨s₁, blank, hb, hemit⟩ := step_begun hs
  have hsuffix := (begin_frame hb).1
  have hne {l : Lexeme} (hl : l.closes = false) : t.lexeme ≠ l := by
    rintro rfl
    rw [hl] at hcloses
    cases hcloses
  obtain ⟨-, hline⟩ := emit_inside hemit fun u hu => Option.some.inj hu ▸ ⟨hne rfl, hne rfl⟩
  have hrest : s₁.reader.rest ≠ [] := by
    intro hnil
    obtain ⟨r, u, -, hu, heq⟩ := Scanner.inLine_end s₁.reader.rest.length blank hnil
    rw [heq] at hline
    split at hline
    · obtain ⟨hut, -⟩ := Prod.mk.inj (Except.ok.inj hline)
      exact hne rfl (Option.some.inj hut ▸ hu)
    · cases hline
  have hlight : Light (some t) := fun u hu => Option.some.inj hu ▸ Lexeme.wall_of_closes hcloses
  obtain ⟨c, hc, h⟩ := inLine_light (Nat.lt_succ_self _) (he.of_suffix hsuffix) hrest hlight hline
  exact ⟨c, hc, h.trans hsuffix⟩

theorem exists_stop (hr : Reads s ts s') (he : Ended s.reader.rest) (h : ∃ l ∈ ts.map (·.lexeme), l.closes = true) :
    ∃ c z, (c = '\n' ∨ c = ';') ∧ c :: z <:+ s.reader.rest ∧ s'.reader.rest <:+ z := by
  induction hr with
  | here => simp at h
  | pass hs _ ih =>
    obtain ⟨c, z, hc, hz, hsuffix⟩ := ih (he.of_suffix (step_suffix hs)) h
    exact ⟨c, z, hc, hz.trans (step_suffix hs), hsuffix⟩
  | token hs _ hr ih =>
    obtain ⟨l, hl, hcloses⟩ := h
    rcases List.mem_cons.mp hl with rfl | hl
    · obtain ⟨c, hc, hsuffix⟩ := stop_of_closes hs he hcloses
      exact ⟨c, _, hc, hsuffix, hr.suffix⟩
    · obtain ⟨c, z, hc, hz, hsuffix⟩ := ih (he.of_suffix (step_suffix hs)) ⟨l, hl, hcloses⟩
      exact ⟨c, z, hc, hz.trans (step_suffix hs), hsuffix⟩

/-- The common text may as well be taken to end earlier. -/
theorem Along.nearer {z : List Char} (h : Along u v s w) (hz : z ++ u <:+ s.reader.rest) :
    Along (z ++ u) (z ++ v) s w := by
  obtain ⟨y, hs, hw⟩ := h.rest
  obtain ⟨y₁, hy⟩ := hz
  have hy₁ : y₁ ++ z = y := List.append_cancel_right (by rw [List.append_assoc, hy, hs])
  exact ⟨⟨y₁, hy.symm, by rw [hw, ← hy₁, List.append_assoc]⟩, h.ended, h.start, h.pending, h.levels, h.brackets⟩

theorem Along.farther {z : List Char} (h : Along (z ++ u) (z ++ v) s w) : Along u v s w := by
  obtain ⟨y, hs, hw⟩ := h.rest
  exact ⟨⟨y ++ z, by rw [hs, List.append_assoc], by rw [hw, List.append_assoc]⟩, h.ended, h.start, h.pending, h.levels,
    h.brackets⟩

/-- Both scanners read the same tokens in front of a place behind which the texts differ. -/
theorem Along.reads (hsu : Sharp u) (hsv : Sharp v) (hr : Reads s ts s') (hrest : Rested (ts.map (·.lexeme)))
    (h : Along u v s w) (hu : u <:+ s'.reader.rest) :
    ∃ ts' w', Reads w ts' w' ∧ ts'.map (·.lexeme) = ts.map (·.lexeme) ∧ Along u v s' w' := by
  induction hr generalizing w with
  | here => exact ⟨[], w, .here w, rfl, h⟩
  | pass hs hr ih =>
    have hlight : Light none := fun u hu => by cases hu
    obtain ⟨t', w₁, hw, hlexeme, h₁⟩ := h.step (.inr ⟨hsu, hsv, hlight⟩) hs (hu.trans hr.suffix)
    obtain rfl : t' = none := Option.map_eq_none_iff.mp hlexeme
    obtain ⟨ts', w', hr', hts, h'⟩ := ih hrest h₁ hu
    exact ⟨ts', w', .pass hw hr', hts, h'⟩
  | @token s s₁ s' t ts hs ht hr ih =>
    obtain ⟨hclosed, hrest⟩ := hrest
    have hstep : ∃ t' w₁, Scanner.step w = .ok (t', w₁) ∧ t'.map (·.lexeme) = some t.lexeme ∧ Along u v s₁ w₁ := by
      rcases hclosed with hwall | hcloses
      · exact h.step (.inr ⟨hsu, hsv, fun u hu => Option.some.inj hu ▸ hwall⟩) hs (hu.trans hr.suffix)
      · -- the token ends in front of the next end of a row or of a statement
        obtain ⟨c, z, hc, hz, hsuffix⟩ := exists_stop hr (h.ended.of_suffix (step_suffix hs)) hcloses
        obtain ⟨y, rfl⟩ := hu.trans hsuffix
        obtain ⟨t', w₁, hw, hlexeme, h₁⟩ :=
          (h.nearer (z := c :: y) (hz.trans (step_suffix hs))).step (.inl (.stop hc _ _)) hs hz
        exact ⟨t', w₁, hw, hlexeme, h₁.farther (z := c :: y)⟩
    obtain ⟨t', w₁, hw, hlexeme, h₁⟩ := hstep
    obtain ⟨t', rfl, ht'⟩ := Option.map_eq_some_iff.mp hlexeme
    obtain ⟨ts', w', hr', hts, h'⟩ := ih hrest h₁ hu
    refine ⟨t' :: ts', w', .token hw (fun hfin => ht (ht'.symm.trans hfin)) hr', ?_, h'⟩
    rw [List.map_cons, List.map_cons, ht', hts]

end Front

section Word

variable {text u y : List Char} {s s' : Scanner} {blank : Bool}

/-- What is passed in front of a token. -/
inductive Gap : List Char → Prop
  | nil : Gap []
  | blank {c : Char} {y : List Char} (hc : c = ' ' ∨ c = '\t' ∨ c = '\x0c') (h : Gap y) : Gap (c :: y)
  | backslash {y : List Char} (h : Gap y) : Gap ('\\' :: '\n' :: y)

/-- In front of a token it does not matter how many steps are left, nor whether the row held code so far. -/
theorem inLine_sharp {fuel fuel' : Nat} {blank' : Bool} (h : Sharp s.reader.rest) :
    inLine (fuel + 1) s blank = inLine (fuel' + 1) s blank' := by
  obtain ⟨c, rest, hs, hc⟩ := h
  simp only [List.mem_cons, not_or] at hc
  rcases glance c rest with hg | hg | hg | hg | hg | rfl | hg
  · exact absurd hg (by simp [hc])
  · exact absurd hg (by simp [hc])
  · rw [inLine_word hs hg, inLine_word hs hg]
  · rw [inLine_number hs hg, inLine_number hs hg]
  · rw [inLine_quote hs hg, inLine_quote hs hg]
  · exact absurd rfl hc.2.2.2.1
  · rw [inLine_symbol hs hg, inLine_symbol hs hg]

/-- A gap is passed. -/
theorem inLine_gap {fuel : Nat} (blank : Bool) (hy : Gap y) (hu : Sharp u) (h : s.reader.rest = y ++ u)
    (hf : s.reader.rest.length < fuel) :
    ∃ r, r.rest = u ∧ inLine fuel s blank = inLine (u.length + 1) { s with reader := r } false := by
  induction hy generalizing s fuel with
  | nil =>
    obtain ⟨fuel, rfl⟩ : ∃ n, fuel = n + 1 := ⟨fuel - 1, by omega⟩
    have h : s.reader.rest = u := h
    exact ⟨s.reader, h, inLine_sharp (h ▸ hu)⟩
  | @blank c y hc _ ih =>
    obtain ⟨fuel, rfl⟩ : ∃ n, fuel = n + 1 := ⟨fuel - 1, by omega⟩
    obtain ⟨r, hr, heq⟩ := inLine_blank fuel blank h hc
    rw [h] at hf
    obtain ⟨r', hr', heq'⟩ := ih (s := { s with reader := r }) hr (hr ▸ Nat.lt_of_succ_lt_succ hf)
    exact ⟨r', hr', heq.trans heq'⟩
  | @backslash y _ ih =>
    obtain ⟨fuel, rfl⟩ : ∃ n, fuel = n + 1 := ⟨fuel - 1, by omega⟩
    have hpassed : ((s.reader.settle false).skip true).rest = '\n' :: (y ++ u) := by
      rw [Reader.rest_skip, Reader.rest_settle, h]
      rfl
    have hne : y ++ u ≠ [] := by
      obtain ⟨c, rest, rfl, -⟩ := hu
      simp
    obtain ⟨d, rest, hd⟩ := List.exists_cons_of_ne_nil hne
    rcases continueLine_eq ((s.reader.settle false).skip true) true with ⟨d', rest', r, hr, hr', heq⟩ | ⟨hnot, -⟩
    · obtain ⟨-, hrest⟩ := List.cons.inj (hr.symm.trans hpassed)
      rw [h] at hf
      simp only [List.cons_append, List.length_cons] at hf
      have hr₁ : r.rest = y ++ u := hr'.trans hrest
      obtain ⟨r', hr', heq'⟩ := ih (s := { s with reader := r }) hr₁
        (show r.rest.length < fuel by rw [hr₁]; omega)
      refine ⟨r', hr', ?_⟩
      rw [inLine_backslash h, heq]
      exact heq'
    · exact absurd (hpassed.trans (congrArg _ hd)) (hnot d rest)

/-- The scanner stands in front of a gap and of the token `t` behind it. -/
def Found (text : List Char) (s : Scanner) (t : Token) : Prop :=
  ∃ y front u, Gap y ∧ Sharp u ∧ s.reader.rest = y ++ u ∧ text = front ++ u ∧ (P.spanOf t).start.Behind front

section Found

variable {s₁ : Scanner} {c : Char} {rest : List Char} {l : Lexeme} {n : Nat} {warning : Option String} {t : Token}

/-- The token begins right here. -/
theorem found_here (hs : s.reader.Stands text) (hr : (s.reader.settle false).rest = c :: rest)
    (hc : c ∉ [' ', '\t', '\x0c', '\\', '\n', '#', ';']) :
    Found text s (s₁.take (s.reader.settle false) l n warning).1 := by
  have hr := (s.reader.rest_settle false).symm.trans hr
  obtain ⟨front, htext, -, hbehind⟩ := hs.settled false hr
  exact ⟨[], front, c :: rest, .nil, ⟨c, rest, rfl, hc⟩, hr, htext, hbehind⟩

/-- A word, a number or a literal begins right here. -/
theorem found_taken {p : Char → Bool} (hs : s.reader.Stands text) (hr : (s.reader.settle false).rest = c :: rest)
    (hp : p c = true) (hnone : [' ', '\t', '\x0c', '\\', '\n', '#', ';'].any p = false)
    (htake : ∃ l n warning, (t, s') = s.take (s.reader.settle false) l n warning ∧ l.isWall = false) :
    Found text s t := by
  obtain ⟨l, n, warning, hy, -⟩ := htake
  rw [show t = (s.take (s.reader.settle false) l n warning).1 from congrArg Prod.fst hy]
  exact found_here hs hr fun hc => List.any_eq_false.mp hnone c hc hp

theorem found_blank (hr : (s.reader.settle false).rest = c :: rest) (hc : c = ' ' ∨ c = '\t' ∨ c = '\x0c')
    (h : Found text { s with reader := (s.reader.settle false).skip false } t) : Found text s t := by
  obtain ⟨y, front, u, hy, hu, hrest, htext, hbehind⟩ := h
  have hr : s.reader.rest = c :: rest := (s.reader.rest_settle false).symm.trans hr
  have hrest : rest = y ++ u := by rw [← hrest, Reader.rest_skip, Reader.rest_settle, hr, List.tail_cons]
  exact ⟨c :: y, front, u, .blank hc hy, hu, hr.trans (congrArg _ hrest), htext, hbehind⟩

theorem found_backslash {r : Reader} (hr : (s.reader.settle false).rest = '\\' :: rest)
    (hcont : continueLine ((s.reader.settle false).skip true) true = .ok r)
    (h : Found text { s with reader := r } t) : Found text s t := by
  obtain ⟨y, front, u, hy, hu, hrest, htext, hbehind⟩ := h
  have hr : s.reader.rest = '\\' :: rest := (s.reader.rest_settle false).symm.trans hr
  obtain ⟨hrest', -⟩ := continueLine_rest hcont
  rw [Reader.rest_skip, Reader.rest_settle, hr, List.tail_cons] at hrest'
  exact ⟨'\\' :: '\n' :: y, front, u, .backslash hy, hu, by rw [hr, hrest', hrest]; rfl, htext, hbehind⟩

end Found

/-- A token of a statement is found behind a gap, where its place says. -/
theorem inLine_found {fuel : Nat} {o : Option Token} {t : Token} (hs : s.reader.Stands text)
    (h : inLine fuel s blank = .ok (o, s')) (ho : o = some t) (ht : t.lexeme.isWall = false) : Found text s t := by
  have hwall {t' : Token} {p : Prop} (heq : o = some t') (hl : t'.lexeme.isWall = true) : p := by
    obtain rfl := Option.some.inj (ho.symm.trans heq)
    rw [hl] at ht
    cases ht
  have hsharp {c : Char} (hb : ¬(c = ' ' || c = '\t' || c = '\x0c') = true) (hn : ¬(c = '\n' || c = '#') = true)
      (hbs : ¬c = '\\') (hsemi : c ≠ ';') : c ∉ [' ', '\t', '\x0c', '\\', '\n', '#', ';'] := by
    simp only [Bool.or_eq_true, decide_eq_true_eq, not_or] at hb hn
    simp [hb, hn, hbs, hsemi]
  fun_induction inLine fuel s blank with
  | case1 | case2 | case6 => exact hwall (Prod.mk.inj (Except.ok.inj h)).1.symm rfl
  | case4 _ s _ _ c rest hr hc ih =>
    exact found_blank hr (by simpa [or_assoc] using hc) (ih ((hs.settle false).skip false) h)
  | case5 => cases (Prod.mk.inj (Except.ok.inj h)).1.trans ho
  | case7 _ s _ _ c rest hr hb hn hw =>
    obtain ⟨t, rfl, hx⟩ := of_map_some h
    obtain rfl := Option.some.inj ho
    exact found_taken (p := fun c => Numeral.continuesWord c && !c.isDigit) hs hr hw rfl (exists_take (.inl hx))
  | case8 _ s _ _ c rest hr hb hn hw hd =>
    obtain ⟨t, rfl, hx⟩ := of_map_some h
    obtain rfl := Option.some.inj ho
    refine found_taken (p := fun c => c.isDigit || (c = '.' && (rest.head?.map Char.isDigit).getD false)) hs hr hd ?_
      (exists_take (.inr (.inl hx)))
    generalize (rest.head?.map Char.isDigit).getD false = digit
    cases digit <;> rfl
  | case9 _ s _ _ c rest hr hb hn hw hd hq =>
    obtain ⟨t, rfl, hx⟩ := of_map_some h
    obtain rfl := Option.some.inj ho
    exact found_taken (p := fun c => c = '\'' || c = '"') hs hr hq rfl (exists_take (.inr (.inr ⟨_, hx⟩)))
  | case10 _ s _ _ rest r hcont hr _ _ _ _ _ ih =>
    exact found_backslash hr hcont (ih (continueLine_stands ((hs.settle false).skip true) hcont) h)
  | case12 _ s _ _ c rest hr hb hn hw hd hq hbs sym n hsym =>
    cases hbr : s.bracket (s.reader.settle false) sym with
    | error e =>
      rw [hbr] at h
      cases h
    | ok s₁ =>
      rw [hbr] at h
      have ho₁ := (Prod.mk.inj (Except.ok.inj h)).1.symm
      obtain rfl := Option.some.inj (ho.symm.trans ho₁)
      refine found_here hs hr (hsharp hb hn hbs fun hsemi => ?_)
      rw [hsemi] at hr
      rw [hr, longest?_semi] at hsym
      obtain ⟨rfl, -⟩ := Prod.mk.inj (Option.some.inj hsym)
      exact hwall ho rfl
  | case13 _ s _ _ c rest hr hb hn hw hd hq hbs hsym hprint t₁ s₁ htake =>
    obtain rfl := Option.some.inj (ho.symm.trans (Prod.mk.inj (Except.ok.inj h)).1.symm)
    have htake : (s.take (s.reader.settle false) .stray 1 none).1 = t := congrArg Prod.fst htake
    rw [← htake]
    refine found_here hs hr (hsharp hb hn hbs fun hsemi => ?_)
    rw [hsemi] at hr
    rw [hr, longest?_semi] at hsym
    cases hsym
  | case3 | case11 | case14 => cases h

end Word

section Spliced

variable {text u y : List Char} {s s' w w' : Scanner} {blank : Bool} {ts : List Token} {t : Token} {ls : List Lexeme}

/-- What the word leaves in front of a statement is read as the statement was. -/
theorem spells_behind (hy : Gap y) (hu : Sharp u) (he : Ended u) (hrest : s.reader.rest = y ++ u)
    (hstart : s.lineStart = false) (hp : s.pending = 0)
    (hline : inLine (s.reader.rest.length + 1) s blank = .ok (some t, s')) (ht : t.lexeme ≠ .finish) (hs : Spells s' ls)
    (hw : Stands w false 0 s.levels (s.brackets.map (·.bracket)) u) : Spells w (t.lexeme :: ls) := by
  obtain ⟨r, hr, heq⟩ := inLine_gap blank hy hu hrest (Nat.lt_succ_self _)
  have halong : Along [] [] { s with reader := r } w :=
    ⟨⟨u, hr.trans (List.append_nil u).symm, hw.rest.trans (List.append_nil u).symm⟩, hr.symm ▸ he,
      hw.lineStart.trans hstart.symm, hw.pending.trans hp.symm, hw.levels, hw.brackets⟩
  have hlen : r.rest.length < u.length + 1 := Nat.lt_succ_of_le (Nat.le_of_eq (congrArg List.length hr))
  obtain ⟨o, w', hline', hlexeme, h'⟩ :=
    halong.inLine (.inl .nil) hlen (Nat.lt_succ_self _) (heq.symm.trans hline) List.nil_suffix
  obtain ⟨t', rfl, ht'⟩ := Option.map_eq_some_iff.mp hlexeme
  have ht' : t'.lexeme = t.lexeme := ht'
  have hstep : step w = .ok (some t', w') := (step_inside hw.lineStart hw.pending).trans hline'
  rw [← ht']
  exact .token hstep (fun h => ht (ht'.symm.trans h)) (h'.spells hs)

/-- The word is read behind a gap. -/
theorem spells_return (hb : Scanner.begin w = .ok (w', blank)) (hy : Gap y)
    (hrest : w'.reader.rest = y ++ ("return ".toList ++ u)) (hp : w'.pending = 0)
    (hs : ∀ w₁, Stands w₁ false 0 w'.levels (w'.brackets.map (·.bracket)) u → Spells w₁ ls) :
    Spells w (.word .return_ :: ls) := by
  obtain ⟨-, hstart, -, -⟩ := begin_frame hb
  obtain ⟨r, hr, heq⟩ := inLine_gap blank hy (u := "return ".toList ++ u) ⟨'r', _, rfl, by decide⟩ hrest
    (Nat.lt_succ_self _)
  have hword : Stands { w' with reader := r } false 0 w'.levels (w'.brackets.map (·.bracket))
      ("return".toList ++ ' ' :: u) := ⟨hstart, hp, rfl, rfl, hr⟩
  have hstep : step w = step { w' with reader := r } := by
    rw [step, hb, step_inside hword.lineStart hword.pending]
    dsimp only
    rw [emit_of_pending hp, heq, hr]
  obtain ⟨t, w₁, hstep₁, ht, hblank⟩ := hword.word rfl (by rintro c ⟨⟩; decide)
  obtain ⟨w₂, hw₂, hstep₂⟩ := Stands.blanks (k := 1) hblank
  have hspells := Spells.token (hstep.trans hstep₁) (by rw [ht]; exact wordLexeme_ne_finish _)
    ((hs w₂ hw₂).of_step hstep₂.symm)
  rwa [ht] at hspells

/-- A word that goes in front of a statement is read in front of it, and all other tokens stay as they are. -/
theorem spells_spliced (he : Ended text) (hr : Reads (ofText text) ts s) (hrested : Rested (ts.map (·.lexeme)))
    (hstep : step s = .ok (some t, s')) (ht : t.lexeme.isWall = false) (hs : Spells s' ls) :
    ∃ front u, Sharp u ∧ text = front ++ u ∧ (P.spanOf t).start.Behind front ∧
      Spells (ofText (front ++ ("return ".toList ++ u))) (ts.map (·.lexeme) ++ .word .return_ :: t.lexeme :: ls) := by
  obtain ⟨s₁, blank, hb, hemit⟩ := step_begun hstep
  have hne {l : Lexeme} (hl : l.isWall = true) : t.lexeme ≠ l := by
    rintro rfl
    rw [hl] at ht
    cases ht
  obtain ⟨hp, hline⟩ := emit_inside hemit fun u hu => Option.some.inj hu ▸ ⟨hne rfl, hne rfl⟩
  obtain ⟨hsuffix, hstart, -, -⟩ := begin_frame hb
  have hstands := begin_stands (hr.stands (Reader.ofText_stands text)).2 hb
  obtain ⟨y, front, u, hy, hu, hrest, htext, hbehind⟩ := inLine_found hstands hline rfl ht
  refine ⟨front, u, hu, htext, hbehind, ?_⟩
  have hv : Sharp ("return ".toList ++ u) := ⟨'r', _, rfl, by decide⟩
  have hofText : Along u ("return ".toList ++ u) (ofText text) (ofText (front ++ ("return ".toList ++ u))) :=
    ⟨⟨front, htext, rfl⟩, he, rfl, rfl, rfl, rfl⟩
  have hus : u <:+ s₁.reader.rest := ⟨y, hrest.symm⟩
  obtain ⟨ts', w, hr', hts, h⟩ := hofText.reads hu hv hr hrested (hus.trans hsuffix)
  obtain ⟨w₁, hbw, h₁⟩ := h.begin (hu.tails hv) hb hus
  obtain ⟨y', hy', hw₁⟩ := h₁.rest
  obtain rfl : y = y' := List.append_cancel_right (hrest.symm.trans hy')
  rw [← hts]
  refine hr'.spells (spells_return hbw hy hw₁ (h₁.pending.trans hp) fun w₂ hw₂ => ?_)
  rw [h₁.levels, h₁.brackets] at hw₂
  exact spells_behind hy hu (Ended.suffix (htext ▸ he)) hrest hstart hp hline (hne rfl) hs hw₂

end Spliced

section Tokens

variable {text : List Char} {s s' : Scanner} {ts₁ ts₂ : List Token} {t : Token} {last : Option Lexeme} {depth : Nat}
  {ls ls' : List Lexeme}

/-- A token that was read was read in a step. -/
theorem Lang.Scanner.Reads.split (h : Reads s (ts₁ ++ t :: ts₂) s') :
    ∃ s₁ s₂, Reads s ts₁ s₁ ∧ step s₁ = .ok (some t, s₂) ∧ Reads s₂ ts₂ s' := by
  generalize hts : ts₁ ++ t :: ts₂ = ts at h
  induction h generalizing ts₁ with
  | here => exact absurd hts (by simp)
  | pass hs _ ih =>
    obtain ⟨s₁, s₂, hr, hstep, hr'⟩ := ih hts
    exact ⟨s₁, s₂, .pass hs hr, hstep, hr'⟩
  | token hs ht hr ih =>
    cases ts₁ with
    | nil =>
      obtain ⟨rfl, rfl⟩ := List.cons.inj hts
      exact ⟨_, _, .here _, hs, hr⟩
    | cons u ts₁ =>
      obtain ⟨rfl, hts'⟩ := List.cons.inj hts
      obtain ⟨s₁, s₂, hr, hstep, hr'⟩ := ih hts'
      exact ⟨s₁, s₂, .token hs ht hr, hstep, hr'⟩

/-- The tokens of a text, as its scanner reads them. -/
theorem reads_of_lexemes (h : TokenStream.lexemes text = ls ++ [.finish]) :
    ∃ ts s t s', Reads (ofText (canonical text)) ts s ∧ step s = .ok (some t, s') ∧ t.lexeme = .finish ∧
      (TokenStream.ofText text).tokens.toList = ts ++ [t] ∧ ts.map (·.lexeme) = ls := by
  obtain ⟨ts, s, ts', hr, htokens, ho⟩ :=
    collect_reads (2 * (canonical text).length + indentLimit + 2) (Scanner.ofText (canonical text)) #[]
  have htokens : (TokenStream.ofText text).tokens.toList = ts' := by
    rw [TokenStream.ofText, htokens]
    simp
  have hmap : ts'.map (·.lexeme) = ls ++ [.finish] := htokens ▸ h
  obtain ⟨t, ht, hl⟩ := List.mem_map.mp (hmap ▸ List.mem_append_right ls (List.mem_singleton_self _))
  generalize (TokenStream.collect _ _ _).halt.map (·.1.rejection) = halt at ho
  cases ho with
  | finished hs hfin =>
    rw [List.map_append, List.map_cons, List.map_nil, hfin] at hmap
    exact ⟨ts, s, _, _, hr, hs, hfin, htokens, List.append_cancel_right hmap⟩
  | halted | exhausted => exact absurd hl (hr.lexeme_ne t ht)

/-- A dedent comes behind the end of a row. -/
theorem newline_of_dedent {l : Lexeme} (h : Orderly (some l) depth (ls ++ ls')) (hl : l.ends = false)
    (hd : .dedent ∈ ls) : .newline ∈ ls := by
  induction ls generalizing l depth with
  | nil => cases hd
  | cons m ls ih =>
    obtain ⟨-, hclosed, h⟩ := h
    by_cases hm : m.ends = true
    · cases m with
      | newline => exact List.mem_cons_self
      | dedent =>
        have hends := hclosed (by decide) l rfl
        rw [hl] at hends
        cases hends
      | _ => cases hm
    · rcases List.mem_cons.mp hd with rfl | hd
      · exact absurd rfl hm
      · exact List.mem_cons_of_mem m (ih h (Bool.of_not_eq_true hm) hd)

/-- In front of a place where statements are parted all tokens are closed. -/
theorem rested_of_parts (h : Orderly last depth (ls ++ ls')) (hlast : ∀ l, ls.getLast? = some l → l.parts = true) :
    Rested ls := by
  induction ls generalizing last depth with
  | nil => trivial
  | cons l ls ih =>
    cases ls with
    | nil =>
      refine ⟨.inl ?_, trivial⟩
      have hparts := hlast l rfl
      cases l with
      | symbol sym => cases sym <;> first | rfl | cases hparts
      | _ => first | rfl | cases hparts
    | cons m ms =>
      have hlast' (x : Lexeme) (hx : (m :: ms).getLast? = some x) : x.parts = true :=
        hlast x (by rwa [List.getLast?_cons_cons])
      refine ⟨?_, ih h.2.2 hlast'⟩
      have hx := List.getLast?_eq_some_getLast (List.cons_ne_nil m ms)
      have hmem := List.getLast_mem (List.cons_ne_nil m ms)
      have hparts := hlast' _ hx
      generalize (m :: ms).getLast _ = x at hmem hparts
      by_cases hwall : l.isWall = true
      · exact .inl hwall
      · refine .inr ?_
        have hends : l.ends = false := Bool.eq_false_iff.mpr fun he => hwall (Lexeme.wall_of_ends he)
        cases x with
        | newline => exact ⟨_, hmem, rfl⟩
        | dedent => exact ⟨_, newline_of_dedent h.2.2 hends hmem, rfl⟩
        | symbol sym => exact ⟨_, hmem, by cases sym <;> first | rfl | cases hparts⟩
        | _ => cases hparts

/-- In front of a token where statements are parted all tokens are closed. -/
theorem rested_of_parted {i : Nat} (hls : TokenStream.lexemes text = ls ++ [.finish]) (ho : Orderly none 0 ls)
    (hparted : PartedAt (TokenStream.ofText text).tokens i) (hi : i ≤ ls.length) : Rested (ls.take i) := by
  rw [← List.take_append_drop i ls] at ho
  refine rested_of_parts ho fun l hl => ?_
  cases i with
  | zero => cases hl
  | succ j =>
    obtain ⟨t, ht, hparts⟩ := hparted j rfl
    have hj := getElem?_tokens hls j
    rw [ht, List.getElem?_append_left hi] at hj
    rw [List.getLast?_take, if_neg (Nat.succ_ne_zero j), Nat.add_sub_cancel, ← hj] at hl
    exact Option.some.inj hl ▸ hparts

theorem nestedWithin_insert {limit : Nat} {l : Lexeme} (hl : ∀ depth, deepened depth l = depth) (hne : l ≠ .indent)
    (h : NestedWithin limit depth (ls ++ ls')) : NestedWithin limit depth (ls ++ l :: ls') := by
  induction ls generalizing depth with
  | nil => exact ⟨fun h => absurd h hne, by rw [hl]; exact h⟩
  | cons m ls ih => exact ⟨h.1, ih h.2⟩

end Tokens

section Unit

variable {code : List Char} {name : String} {body : List Stmt} {p : Place} {ls : List Lexeme} {i k : Nat} {t : Token}

/-- The edited code has the word where its place is in the text that is read. -/
theorem canonical_returnAt {front rest : List Char} {c : Char} (htext : canonical code = front ++ c :: rest)
    (hc : c ≠ '\n') (hbehind : p.Behind front) (hk : p.At code k) :
    canonical (returnAt code k) = front ++ ("return ".toList ++ c :: rest) := by
  obtain ⟨above, row, after, hcut, hlines, hrow, hcanon⟩ := cutBehind_of_canonical htext hc
  have hat := hcut.at_offset (p := p) (by rw [hbehind.line, hlines]) (by rw [hbehind.byte, hrow])
  obtain rfl := hk.unique hat
  rw [hcut.text, returnAt_length, List.append_assoc]
  exact hcanon _ (by decide)

/-- The tokens of the edited code. -/
theorem spells_returned (hls : TokenStream.lexemes code = ls ++ [.finish])
    (ht : (TokenStream.ofText code).tokens[i]? = some t) (hbegins : t.lexeme.begins = true)
    (hstart : p = (P.spanOf t).start) (hparted : PartedAt (TokenStream.ofText code).tokens i) (hk : p.At code k) :
    Spells (ofText (canonical (returnAt code k))) (ls.take i ++ .word .return_ :: ls.drop i) ∧
      (canonical code).length < (canonical (returnAt code k)).length := by
  have hwall := Lexeme.not_wall_of_begins hbegins
  obtain ⟨ts, s, t', s', hr, hs, hfin, htokens, rfl⟩ := reads_of_lexemes hls
  have hti : ts[i]? = some t := by
    rw [← Array.getElem?_toList, htokens, List.getElem?_append] at ht
    split at ht
    · exact ht
    · rw [List.mem_singleton.mp (List.mem_of_getElem? ht), hfin] at hwall
      cases hwall
  obtain ⟨hi, hget⟩ := List.getElem?_eq_some_iff.mp hti
  have hsplit : ts = ts.take i ++ t :: ts.drop (i + 1) := by
    rw [← hget, List.getElem_cons_drop, List.take_append_drop]
  have hspells := hr.spells (.finish hs hfin)
  rw [List.append_nil] at hspells
  have hrested := rested_of_parted hls (orderly_of_spells hspells) hparted
    (Nat.le_of_lt (Nat.lt_of_lt_of_eq hi (List.length_map _).symm))
  rw [hsplit] at hr
  obtain ⟨s₁, s₂, hr₁, hstep, hr₂⟩ := hr.split
  have he : Ended (canonical code) := fun c hc => Option.some.inj (hc.symm.trans (getLast?_canonical code))
  rw [← List.map_take] at hrested
  obtain ⟨front, u, ⟨c, rest, rfl, hc⟩, htext, hbehind, hspells'⟩ :=
    spells_spliced he hr₁ hrested hstep hwall (hr₂.spells (.finish hs hfin))
  have hcn : c ≠ '\n' := fun h => hc (by simp [h])
  rw [canonical_returnAt htext hcn (hstart ▸ hbehind) hk]
  refine ⟨?_, by rw [htext]; simp⟩
  rwa [List.append_nil, ← List.map_cons, ← hget, List.getElem_cons_drop, List.map_take, List.map_drop] at hspells'

theorem trim_ne_nil {text : List Char} {c : Char} (hc : c ∈ text) (hblank : isBlank c = false) : trim text ≠ [] := by
  have hdrop {text : List Char} (hc : c ∈ text) : c ∈ text.dropWhile isBlank := by
    rw [← List.takeWhile_append_dropWhile (p := isBlank) (l := text)] at hc
    rcases List.mem_append.mp hc with h | h
    · exact absurd (List.mem_takeWhile_imp h) (by simp [hblank])
    · exact h
  have hmem : c ∈ trim text := List.mem_reverse.mpr (hdrop (List.mem_reverse.mpr (hdrop hc)))
  exact List.ne_nil_of_mem hmem

/-- What a unit is made of that returns the last expression of its code. The tokens are those of the code, with the word
in front of the one that the expression begins with. -/
structure Returned (code : List Char) (name : String) (p : Place) (ls : List Lexeme) (u : SnippetUnit) : Prop where
  halt : (TokenStream.ofText u.source).halt = none
  lexemes : ∃ i t, (TokenStream.ofText code).tokens[i]? = some t ∧ t.lexeme.begins = true ∧ p = (P.spanOf t).start ∧
    TokenStream.lexemes u.source = headerLexemes name ++
      .indent :: (ls.take i ++ .word .return_ :: ls.drop i ++ [.dedent, .dedent]) ++ [.finish]

/-- What a unit is made of whose code is left as it is. -/
structure Kept (name : String) (ls : List Lexeme) (u : SnippetUnit) : Prop where
  halt : (TokenStream.ofText u.source).halt = none
  lexemes : TokenStream.lexemes u.source = headerLexemes name ++ .indent :: (ls ++ [.dedent, .dedent]) ++ [.finish]

theorem map_padded (h : ∀ l ∈ ls, paddedLexeme l = l) : ls.map paddedLexeme = ls :=
  (List.map_congr_left (g := id) h).trans (List.map_id ls)

theorem head_ne_indent {l : Lexeme} (h : ls.head? = some l) (hl : l.isWall = false) : ls.head? ≠ some .indent := by
  intro hindent
  obtain rfl := Option.some.inj (h.symm.trans hindent)
  cases hl

theorem orderly_of_parse (hparse : (parse code false).1 = .ok body) (hls : TokenStream.lexemes code = ls ++ [.finish]) :
    Orderly none 0 ls ∧ ls.length < 2 * (canonical code).length + indentLimit + 2 := by
  obtain ⟨u, hu, hfin⟩ := exists_finish_of_parse hparse
  obtain ⟨ls', hspells, hls', hlen⟩ := TokenStream.spells_of_finish hu hfin
  obtain rfl : ls' = ls := List.append_cancel_right (hls'.symm.trans hls)
  exact ⟨orderly_of_spells hspells, hlen⟩

/-- The unit of a code that ends in an expression. -/
theorem wrap_returned (hname : isIdentifier name.toList = true) (hparse : (parse code false).1 = .ok body)
    (hends : EndsAt body p) (hls : TokenStream.lexemes code = ls ++ [.finish]) (hplain : ∀ l ∈ ls, paddedLexeme l = l)
    (hk : p.At code k) (htorn : ¬Torn (code.take k).dropLast) (hup : Upright ('\n' :: canonical (returnAt code k)))
    (hnest : NestedWithin 97 0 ls) : ∃ u, wrap [] code name = .ok u ∧ Returned code name p ls u := by
  obtain ⟨k', hk', hedited⟩ := (returningBody_exact code).1 body p hparse hends
  obtain rfl := hk.unique hk'
  obtain ⟨span, e, hlast, -, -, rfl⟩ := hends
  obtain ⟨ho, hlen⟩ := orderly_of_parse hparse hls
  obtain ⟨i, t, ht, hbegins, hstart, hparted⟩ := led_of_parse hparse hls ho _ (List.mem_of_getLast? hlast) span e rfl
  obtain ⟨l, hhead, hwall⟩ := head_of_parse hparse (by rintro rfl; cases hlast) hls ho
  obtain ⟨hspells', hlt⟩ := spells_returned hls ht hbegins hstart hparted hk
  have hbody : unitBody code = .ok (returnAt code k) := by
    rw [unitBody, hedited.exact_of_not_torn htorn]
    dsimp only
    rw [if_neg]
    rw [List.isEmpty_iff]
    exact trim_ne_nil (c := 'r') (by simp [returnAt]) (by decide)
  have hlength : (ls.take i ++ .word .return_ :: ls.drop i).length = ls.length + 1 := by
    simp only [List.length_append, List.length_cons, List.length_take, List.length_drop]
    omega
  obtain ⟨hlexemes, -⟩ := TokenStream.lexemes_of_spells hspells' (by omega)
  have hplain' : ∀ l ∈ ls.take i ++ .word .return_ :: ls.drop i, paddedLexeme l = l := by
    intro l hl
    rcases List.mem_append.mp hl with hl | hl
    · exact hplain l (List.mem_of_mem_take hl)
    · rcases List.mem_cons.mp hl with rfl | hl
      · rfl
      · exact hplain l (List.mem_of_mem_drop hl)
  have hfirst : (ls.take i ++ .word .return_ :: ls.drop i).head? ≠ some .indent := by
    cases i with
    | zero => rintro ⟨⟩
    | succ i =>
      obtain ⟨l', ls, rfl⟩ : ∃ l' ls', ls = l' :: ls' := List.exists_cons_of_ne_nil (by rintro rfl; cases hhead)
      exact head_ne_indent (l := l) hhead hwall
  have hnest' : NestedWithin 97 0 (ls.take i ++ .word .return_ :: ls.drop i) :=
    nestedWithin_insert (fun _ => rfl) (by rintro ⟨⟩) (by rwa [List.take_append_drop])
  obtain ⟨w, hw, hhalt, hunit⟩ := wrap_lexemes hname hbody hlexemes fun _ => ⟨hup, hfirst, hnest'⟩
  refine ⟨w, hw, hhalt, i, t, ht, hbegins, hstart, ?_⟩
  rw [hunit, housed, if_neg (by simp), map_padded hplain']

/-- The unit of a code that does not end in an expression. -/
theorem wrap_kept (hname : isIdentifier name.toList = true) (hparse : (parse code false).1 = .ok body)
    (hne : body ≠ []) (hends : ∀ p, ¬EndsAt body p) (hls : TokenStream.lexemes code = ls ++ [.finish])
    (hplain : ∀ l ∈ ls, paddedLexeme l = l) (hblank : trim code ≠ []) (hup : Upright ('\n' :: canonical code))
    (hnest : NestedWithin 97 0 ls) : ∃ u, wrap [] code name = .ok u ∧ Kept name ls u := by
  have hret : returningBody code = .ok code := (returningBody_exact code).2 fun body' p hparse' => by
    obtain rfl := Except.ok.inj (hparse.symm.trans hparse')
    exact hends p
  have hbody : unitBody code = .ok code := by
    rw [unitBody, hret]
    dsimp only
    rw [if_neg (by rwa [List.isEmpty_iff])]
  obtain ⟨l, hhead, hwall⟩ := head_of_parse hparse hne hls (orderly_of_parse hparse hls).1
  obtain ⟨w, hw, hhalt, hunit⟩ := wrap_lexemes hname hbody hls fun _ => ⟨hup, head_ne_indent hhead hwall, hnest⟩
  refine ⟨w, hw, hhalt, ?_⟩
  rw [hunit, housed, if_neg (by rintro rfl; cases hhead), map_padded hplain]

end Unit

end Evalbox
