import Evalbox.Proofs.Unit.Tokens

/-!
# Reading an indented text row by row

The scanner of an indented text does in each row what the scanner of the text does (`begin_agree`, `inLine_agree`). It
may halt where the other does not, at the indentation of a row. There is one other exception: where the line feed that
closes a unit makes a row of its own, a backslash at the end of the text continues a line in the padded text alone.
-/

namespace Evalbox

open Text Lang Scanner

variable {tail : List Char} {strict : Prop}

theorem Trails.isEmpty_brackets {s w : Scanner} (h : Trails tail strict s w) :
    w.brackets.isEmpty = s.brackets.isEmpty := by
  have hb := congrArg List.isEmpty h.brackets
  rwa [List.isEmpty_map, List.isEmpty_map] at hb

/-- The same lines are continued behind a backslash. -/
theorem Beside.continueLine {rest p : List Char} {r r' : Reader} (inToken : Bool)
    (h : Beside tail strict ('\\' :: rest) ('\\' :: p)) (hr : r.rest = rest) (hr' : r'.rest = p) :
    Agree strict (fun x y => ∃ k p', x.rest ≠ [] ∧ rest = '\n' :: x.rest ∧ y.rest = List.replicate k ' ' ++ p' ∧
      Beside tail strict x.rest p' ∧ MarginOf x.rest k ∧ y.rest.length ≤ p.length)
      (continueLine r inToken) (continueLine r' inToken) := by
  obtain ⟨p', heq, hp⟩ := h.text.uncons_keep rfl
  obtain ⟨-, rfl⟩ := List.cons.inj heq
  have hrest : Beside tail strict rest p := h.behind ['\\'] hp
  rcases continueLine_eq r inToken with ⟨c, rest', r₁, hr₀, hr₁, hok⟩ | ⟨hno, r₁, stop, herr, -⟩
  · obtain rfl : rest = '\n' :: c :: rest' := hr.symm.trans hr₀
    obtain ⟨k, q, rfl, hq, -, hk⟩ := hrest.uncons
    have hne : List.replicate k ' ' ++ q ≠ [] :=
      List.append_ne_nil_of_right_ne_nil _ (hq.text.ne_nil (List.cons_ne_nil c rest'))
    obtain ⟨d, q', hdq⟩ := List.exists_cons_of_ne_nil hne
    rcases continueLine_eq r' inToken with ⟨d', q'', r₁', hr₀', hr₁', hok'⟩ | ⟨hno', -⟩
    · rw [hok, hok']
      have hq' : r₁'.rest = List.replicate k ' ' ++ q := by
        rw [hr₁', (List.cons.inj (hr₀'.symm.trans hr')).2]
      refine .ok ⟨k, q, ?_, ?_, hq', ?_, ?_, ?_⟩
      · rw [hr₁]
        exact List.cons_ne_nil c rest'
      · rw [hr₁]
      · rwa [hr₁]
      · rw [hr₁]
        exact hk rfl
      · rw [hq']
        exact Nat.le_succ _
    · exact absurd (by rw [hr', hdq]) (hno' d q')
  · rw [herr]
    rcases continueLine_eq r' inToken with ⟨d, q, r₁', hr₀', -, hok'⟩ | ⟨-, r₁', stop', herr', -⟩
    · rw [hok']
      refine .lost (fun hstrict => ?_) _ _
      rw [hr] at hno
      cases rest with
      | nil => exact h.ended.tail_ne_nil (by decide) rfl
      | cons c rest =>
        obtain ⟨k, p', rfl, hp', -, hk⟩ := hrest.uncons
        obtain ⟨rfl, hq⟩ := List.cons.inj (hr'.symm.trans hr₀')
        cases rest with
        | cons c' rest => exact hno c' rest rfl
        | nil =>
          -- the closing line feed is all that is left behind the last row
          obtain ⟨-, h'⟩ | ⟨rfl, -⟩ := hk rfl
          · exact h' rfl
          · refine h.sound hstrict (fun ht => ?_) (List.suffix_refl _)
            rw [hp'.text.eq_tail, ht] at hq
            cases hq
    · rw [herr']
      exact .error _ _

section InLine

/-- The condition for a number looks at one more character behind a point. -/
theorem numberAhead_eq {c : Char} {a b : List Char} (h : Abreast (c :: a) (c :: b)) :
    (c.isDigit || (c = '.' && (a.head?.map Char.isDigit).getD false)) =
      (c.isDigit || (c = '.' && (b.head?.map Char.isDigit).getD false)) := by
  by_cases hp : c = '.'
  · subst hp
    obtain ⟨d, a, b, rfl, rfl, -⟩ := (h.tail rfl).exists_cons
    rfl
  · simp only [hp, decide_false, Bool.false_and]

theorem other_of_abreast {c : Char} {a b : List Char} (h : Abreast (c :: a) (c :: b)) (ho : Other c a) : Other c b :=
  ⟨ho.blank, ho.row, ho.word, numberAhead_eq h ▸ ho.number, ho.quote, ho.backslash⟩

/-- A row ends in both texts. -/
theorem Inside.row {s w : Scanner} {r r' : Reader} (h : Inside tail strict s w r r') {r₁ r₁' : Reader}
    (hr : r₁.rest = (r.rest.dropWhile (· ≠ '\n')).tail) (hr' : r₁'.rest = (r'.rest.dropWhile (· ≠ '\n')).tail) :
    Trails tail strict { s with reader := r₁, lineStart := true } { w with reader := r₁', lineStart := true } := by
  obtain ⟨k, p, hp, hpad, hk⟩ := h.texts.text.row (h.texts.ended.mem h.rest)
  obtain ⟨front, hfront⟩ := (List.tail_suffix _).trans (List.dropWhile_suffix (l := r.rest) (· ≠ '\n'))
  refine ⟨⟨k, p, hr'.trans hp, ?_, fun _ => hr ▸ hk⟩, rfl, h.brackets, fun h => nomatch h⟩
  rw [hr]
  exact (hfront ▸ h.texts).behind front hpad

/-- Inside a line both scanners read the same token, or both halt. -/
theorem inLine_agree {fuel fuel' : Nat} {s w : Scanner} (blank : Bool) (h : Trails tail strict s w)
    (hs : s.lineStart = false) (hf : s.reader.rest.length < fuel)
    (hf' : w.reader.rest.length < fuel') :
    Agree strict (PassAlike tail strict) (inLine fuel s blank) (inLine fuel' w blank) := by
  induction fuel generalizing s w fuel' with
  | zero => exact absurd hf (Nat.not_lt_zero _)
  | succ fuel ih =>
    obtain ⟨k, p, hw, hp, -⟩ := h.texts
    obtain ⟨fuel', r, hr, hfuel, heq⟩ := inLine_blanks blank hw hf'
    rw [heq]
    obtain ⟨fuel', rfl⟩ : ∃ n, fuel' = n + 1 := ⟨fuel' - 1, by omega⟩
    have hin : Inside tail strict s { w with reader := r } (s.reader.settle false) (r.settle false) :=
      ⟨by rwa [Reader.rest_settle, Reader.rest_settle, hr], hs, h.start, h.brackets, by simpa using h.inside hs⟩
    obtain ⟨c, rest, hrest⟩ := List.exists_cons_of_ne_nil (h.inside hs)
    rw [hrest] at hp hf
    obtain ⟨k', p', rfl, hp', -⟩ := hp.uncons
    have hrs : (s.reader.settle false).rest = c :: rest := by rw [Reader.rest_settle, hrest]
    have hrw : (r.settle false).rest = c :: (List.replicate k' ' ' ++ p') := by rw [Reader.rest_settle, hr]
    have habreast := hp.abreast (List.cons_ne_nil c rest)
    have htoken {x y : Except (Reader × Stop) (Token × Scanner)} (hxy : Agree strict (ReadAlike tail strict) x y) :
        Agree strict (PassAlike tail strict) (x.map fun p => (some p.1, p.2)) (y.map fun p => (some p.1, p.2)) :=
      hxy.map fun a b hab => ⟨congrArg some hab.1, hab.2⟩
    rcases glance c rest with hc | hc | hc | hc | hc | rfl | hc
    · -- a blank
      have hcn : c ≠ '\n' := by rcases hc with rfl | rfl | rfl <;> decide
      obtain ⟨r₁, hr₁, heq₁⟩ := inLine_blank fuel blank hrest hc
      obtain ⟨r₁', hr₁', heq₁'⟩ := inLine_blank fuel' blank (s := { w with reader := r }) hr hc
      rw [heq₁, heq₁']
      subst hr₁
      exact ih (hin.trails hr₁' hp' (hp.ended.tail_ne_nil hcn)) hs (Nat.lt_of_succ_lt_succ hf)
        (hr₁' ▸ Nat.lt_of_succ_lt_succ hfuel)
    · -- the end of the row
      obtain ⟨r₁, t, hr₁, hl, heq₁⟩ := inLine_row fuel blank hrest hc
      obtain ⟨r₁', t', hr₁', hl', heq₁'⟩ := inLine_row fuel' blank (s := { w with reader := r }) hr hc
      rw [heq₁, heq₁', h.isEmpty_brackets]
      refine .ok ⟨?_, hin.row (by rw [Reader.rest_settle, hr₁]) (by rw [Reader.rest_settle, hr₁'])⟩
      split
      · rfl
      · rw [Option.map_some, Option.map_some, hl, hl']
        rfl
    · -- a word
      rw [inLine_word hrest hc, inLine_word (s := { w with reader := r }) hr hc]
      exact htoken hin.word
    · -- a number, for which one more character is looked at
      rw [inLine_number hrest hc, inLine_number (s := { w with reader := r }) hr (numberAhead_eq habreast ▸ hc)]
      exact htoken hin.number
    · -- a literal without letters
      rw [inLine_quote hrest hc, inLine_quote (s := { w with reader := r }) hr hc]
      exact htoken (hin.string [] hc (by decide) hrs)
    · -- a backslash
      have hpassed {r : Reader} {rest : List Char} (h : r.rest = '\\' :: rest) :
          ((r.settle false).skip true).rest = rest := by
        rw [Reader.rest_skip, Reader.rest_settle, h, List.tail_cons]
      rw [inLine_backslash hrest, inLine_backslash (s := { w with reader := r }) hr]
      have hagree := hp.continueLine true (hpassed hrest) (hpassed hr)
      generalize continueLine ((s.reader.settle false).skip true) true = x at hagree
      generalize continueLine ((r.settle false).skip true) true = y at hagree
      cases hagree with
      | error => exact .error _ _
      | lost hlost => exact .of_not_strict hlost _ _
      | @ok r₁ r₁' hcont =>
        obtain ⟨k₁, p₁, hne₁, rfl, hr₁', hp₁, -, hle⟩ := hcont
        exact ih (hin.trails hr₁' hp₁ hne₁) hs (Nat.lt_of_succ_lt (Nat.lt_of_succ_lt_succ hf))
          (Nat.lt_of_le_of_lt hle (Nat.lt_of_succ_lt_succ hfuel))
    · -- a symbol, or nothing that a token begins with
      rw [inLine_symbol hrest hc, inLine_symbol (s := { w with reader := r }) hr (other_of_abreast habreast hc)]
      exact hin.symbolOrStray hrs hrw

end InLine

section Margin

/-- No display line of a text begins with a backslash, the first one apart. -/
def Upright (text : List Char) : Prop := ∀ a c b, text = a ++ c :: '\\' :: b → isDisplayBreak c = false

theorem Upright.of_not_mem {text : List Char} (h : '\\' ∉ text) : Upright text := by
  rintro a c b rfl
  exact absurd (by simp) h

theorem Upright.suffix {a b : List Char} (h : Upright (a ++ b)) : Upright b := fun x c y hb =>
  h (a ++ x) c y (by rw [hb, List.append_assoc])

/-- Behind a display break of an upright text there is no backslash. -/
theorem Upright.head? {c : Char} {a : List Char} (h : Upright (c :: a)) (hc : isDisplayBreak c = true) :
    a.head? ≠ some '\\' := by
  intro ha
  obtain ⟨b, rfl⟩ := List.head?_eq_some_iff.mp ha
  exact absurd hc (by simp [h [] c b rfl])

/-- The margin that was read of an upright text `a`, and that of the padded text, which is eight blanks deeper. -/
structure Deeper (a : List Char) (col alt : Nat) (kept : Option Nat) (col' alt' : Nat) (kept' : Option Nat) : Prop where
  upright : Upright a
  first : a.head? = some '\\' → 0 < col
  wider : (∃ n, kept = some (n + 1) ∧ kept' = some (n + 9)) ∨
    kept = none ∧ kept' = none ∧ col' = col + 8 ∧ alt' = alt + 8

/-- What the two margins of a row come to, where `a` is the text in front of them. -/
def MarginAlike (tail : List Char) (strict : Prop) (a : List Char) (deeper : Prop) (x y : Reader × Nat × Nat) : Prop :=
  Beside tail strict x.1.rest y.1.rest ∧ x.1.rest ≠ [] ∧ x.1.rest <:+ a ∧
    (deeper → holdsNoCode x.1.rest = true ∨ y.2 = (x.2.1 + 8, x.2.2 + 8))

theorem MarginAlike.mono {a a₁ : List Char} {deeper deeper₁ : Prop} {x y : Reader × Nat × Nat}
    (h : MarginAlike tail strict a₁ deeper₁ x y) (ha : a₁ <:+ a) (hd : deeper → deeper₁ ∨ a₁ = ['\n']) :
    MarginAlike tail strict a deeper x y := by
  obtain ⟨hb, hne, hsuffix, hm⟩ := h
  refine ⟨hb, hne, hsuffix.trans ha, fun hdeeper => ?_⟩
  rcases hd hdeeper with hd | hend
  · exact hm hd
  · -- the row at hand is the last one and holds nothing but its end
    rw [hend] at hsuffix
    rcases List.suffix_cons_iff.mp hsuffix with hx | hx
    · rw [hx]
      exact .inl rfl
    · exact absurd (List.suffix_nil.mp hx) hne

theorem Deeper.blank {c : Char} {rest : List Char} {k col alt col' alt' : Nat} {kept kept' : Option Nat}
    (h : Deeper (c :: rest) col alt kept col' alt' kept') (hc : c = ' ' ∨ c = '\t' ∨ c = '\x0c') (hne : rest ≠ [])
    (hk : isDisplayBreak c = false → k = 0) (hm : isDisplayBreak c = true → MarginOf rest k) (hend : rest ≠ ['\n']) :
    Deeper rest (measure c col alt).1 (measure c col alt).2 kept ((measure c col' alt').1 + k)
      ((measure c col' alt').2 + k) kept' := by
  refine ⟨h.upright.suffix (a := [c]), fun hfirst => ?_, ?_⟩
  · rcases hc with rfl | rfl | rfl
    · exact Nat.succ_pos col
    · exact Nat.mul_pos (Nat.succ_pos _) (Nat.succ_pos 7)
    · exact absurd hfirst (h.upright.head? rfl)
  · rcases h.wider with hkept | ⟨rfl, rfl, rfl, rfl⟩
    · exact .inl hkept
    · refine .inr ⟨rfl, rfl, ?_⟩
      rcases hc with rfl | rfl | rfl
      · rw [hk rfl]
        exact ⟨Nat.add_right_comm col 8 1, Nat.add_right_comm alt 8 1⟩
      · rw [hk rfl]
        have htab : ((col + 8) / 8 + 1) * 8 + 0 = (col / 8 + 1) * 8 + 8 := by omega
        exact ⟨htab, Nat.add_right_comm alt 8 1⟩
      · obtain ⟨rfl, -⟩ | ⟨-, h | h⟩ := hm rfl
        · exact ⟨rfl, rfl⟩
        · exact absurd h hne
        · exact absurd h hend

theorem Deeper.backslash {rest : List Char} {col alt col' alt' : Nat} {kept kept' : Option Nat}
    (h : Deeper ('\\' :: '\n' :: rest) col alt kept col' alt' kept') (k : Nat) :
    Deeper rest col alt (some (margined kept col)) (col' + k) (alt' + k)
      (some (margined kept' col')) := by
  have hupright : Upright ('\n' :: rest) := h.upright.suffix (a := ['\\'])
  refine ⟨hupright.suffix (a := ['\n']), fun hfirst => absurd hfirst (hupright.head? rfl), .inl ?_⟩
  rcases h.wider with ⟨n, rfl, rfl⟩ | ⟨rfl, rfl, rfl, rfl⟩
  · exact ⟨n, rfl, rfl⟩
  · obtain ⟨n, rfl⟩ : ∃ n, col = n + 1 := ⟨col - 1, by have := h.first rfl; omega⟩
    exact ⟨n, rfl, rfl⟩

theorem Deeper.measured {a : List Char} {col alt col' alt' : Nat} {kept kept' : Option Nat}
    (h : Deeper a col alt kept col' alt' kept') :
    Scanner.measured kept' col' alt' =
      ((Scanner.measured kept col alt).1 + 8, (Scanner.measured kept col alt).2 + 8) := by
  rcases h.wider with ⟨n, rfl, rfl⟩ | ⟨rfl, rfl, rfl, rfl⟩ <;> rfl

/-- Behind their margins both readers stand at the same place, in front of something. -/
theorem margin_agree {fuel fuel' k : Nat} {r r' : Reader} {p : List Char} (col alt col' alt' : Nat)
    (kept kept' : Option Nat) (h : Beside tail strict r.rest p) (hne : r.rest ≠ [])
    (hr' : r'.rest = List.replicate k ' ' ++ p) (hf : r.rest.length < fuel) (hf' : r'.rest.length < fuel') :
    Agree strict (MarginAlike tail strict r.rest (Deeper r.rest col alt kept (col' + k) (alt' + k) kept'))
      (margin fuel r col alt kept) (margin fuel' r' col' alt' kept') := by
  induction fuel generalizing r r' p fuel' k col alt col' alt' kept kept' with
  | zero => exact absurd hf (Nat.not_lt_zero _)
  | succ fuel ih =>
    obtain ⟨fuel', r₀, hr₀, hfuel, heq⟩ := margin_blanks col' alt' kept' hr' hf'
    rw [heq]
    generalize col' + k = col', alt' + k = alt'
    obtain ⟨fuel', rfl⟩ : ∃ n, fuel' = n + 1 := ⟨fuel' - 1, by omega⟩
    rcases margin_glance r.rest with ⟨c, rest, hrest, hc⟩ | ⟨rest, hrest⟩ | hstop
    · -- a blank
      rw [hrest] at h hf ⊢
      have hcn : c ≠ '\n' := by rcases hc with rfl | rfl | rfl <;> decide
      have hne₁ := h.ended.tail_ne_nil hcn
      obtain ⟨k₁, p, rfl, hp, hk, hm⟩ := h.uncons
      obtain ⟨r₁, rfl, heq₁⟩ := margin_blank fuel col alt kept hrest hc
      obtain ⟨r₁', hr₁', heq₁'⟩ := margin_blank fuel' col' alt' kept' hr₀ hc
      rw [heq₁, heq₁']
      have hfuel₁ := hr₁' ▸ Nat.lt_of_succ_lt_succ hfuel
      refine (ih _ _ _ _ _ _ hp hne₁ hr₁' (Nat.lt_of_succ_lt_succ hf) hfuel₁).imp fun x y hxy => ?_
      refine hxy.mono (List.suffix_cons c r₁.rest) fun hd => ?_
      by_cases hend : r₁.rest = ['\n']
      · exact .inr hend
      · exact .inl (hd.blank hc hne₁ hk hm hend)
    · -- a backslash
      rw [hrest] at h hf ⊢
      obtain ⟨p, rfl, -⟩ := h.text.uncons_keep rfl
      obtain ⟨r₁, hr₁, heq₁⟩ := margin_backslash fuel col alt kept hrest
      obtain ⟨r₁', hr₁', heq₁'⟩ := margin_backslash fuel' col' alt' kept' hr₀
      rw [heq₁, heq₁']
      have hagree := h.continueLine false hr₁ hr₁'
      generalize continueLine r₁ false = x at hagree
      generalize continueLine r₁' false = y at hagree
      cases hagree with
      | error => exact .error _ _
      | lost hlost => exact .of_not_strict hlost _ _
      | @ok r₂ r₂' hcont =>
        obtain ⟨k₂, p₂, hne₂, rfl, hr₂', hp₂, -, hle⟩ := hcont
        refine (ih _ _ _ _ _ _ hp₂ hne₂ hr₂' (Nat.lt_of_succ_lt (Nat.lt_of_succ_lt_succ hf))
          (Nat.lt_of_le_of_lt hle (Nat.lt_of_succ_lt_succ hfuel))).imp fun x y hxy => ?_
        exact hxy.mono (List.suffix_append ['\\', '\n'] r₂.rest) fun hd => .inl (hd.backslash k₂)
    · -- the margin ends in both texts
      obtain ⟨c, rest, hrest⟩ := List.exists_cons_of_ne_nil hne
      have hstop' : ∀ c rest, r₀.rest = c :: rest → c ≠ ' ' ∧ c ≠ '\t' ∧ c ≠ '\x0c' ∧ c ≠ '\\' := by
        obtain ⟨k₁, p, hp, -⟩ := (hrest ▸ h).uncons
        intro d rest' hd
        obtain ⟨rfl, -⟩ := List.cons.inj (hd.symm.trans (hr₀.trans hp))
        exact hstop d rest hrest
      obtain ⟨r₁, hr₁, heq₁⟩ := margin_stop fuel col alt kept hstop
      obtain ⟨r₁', hr₁', heq₁'⟩ := margin_stop fuel' col' alt' kept' hstop'
      rw [heq₁, heq₁']
      refine .ok ⟨?_, ?_, ?_, fun hd => .inr hd.measured⟩
      · rwa [hr₁, hr₁', hr₀]
      · rwa [hr₁]
      · exact hr₁ ▸ List.suffix_refl r.rest

end Margin

section Begin

variable {s w s₁ w₁ : Scanner} {blank blank' : Bool}

theorem holdsNoCode_eq {a b : List Char} (h : Beside tail strict a b) (hne : a ≠ []) :
    holdsNoCode b = holdsNoCode a := by
  obtain ⟨c, a, rfl⟩ := List.exists_cons_of_ne_nil hne
  obtain ⟨k, p, rfl, -⟩ := h.uncons
  rfl

/-- A fault in the margin of a row is one in the padded row too, unless it is one in the layout. -/
theorem begin_fault {r : Reader} {stop : Stop} (h : Trails tail strict s w) (hne : s.reader.rest ≠ [])
    (hstrict : strict) (hs : begin s = .error (r, stop)) (hk : (s.halt r stop).rejection.kind = .grammar) :
    ∃ e, begin w = .error e := by
  obtain ⟨k, p, hw, hp, -⟩ := h.texts
  have hagree := margin_agree 0 0 0 0 none none hp hne hw (Nat.lt_succ_self _) (Nat.lt_succ_self _)
  cases hstart : s.lineStart with
  | false => cases (begin_inside hstart).symm.trans hs
  | true =>
    rw [begin_margin hstart] at hs
    rw [begin_margin (h.start.trans hstart)]
    generalize margin (s.reader.rest.length + 1) s.reader 0 0 none = x at hagree hs
    generalize margin (w.reader.rest.length + 1) w.reader 0 0 none = y at hagree
    cases hagree with
    | error _ e' => exact ⟨e', rfl⟩
    | lost hlost => exact absurd hstrict hlost
    | ok => exact absurd hk (behindMargin_error hs)

/-- Where both rows can be begun, the scanners still trail each other. -/
theorem begin_follow (h : Trails tail strict s w) (hne : s.reader.rest ≠ []) (hs : begin s = .ok (s₁, blank))
    (hw : begin w = .ok (w₁, blank')) :
    blank' = blank ∧ Trails tail strict s₁ w₁ ∧ s₁.lineStart = false := by
  obtain ⟨k, p, hrest, hp, -⟩ := h.texts
  cases hstart : s.lineStart with
  | false =>
    obtain ⟨rfl, rfl⟩ := Prod.mk.inj (Except.ok.inj ((begin_inside hstart).symm.trans hs))
    obtain ⟨rfl, rfl⟩ := Prod.mk.inj (Except.ok.inj ((begin_inside (h.start.trans hstart)).symm.trans hw))
    exact ⟨rfl, h, hstart⟩
  | true =>
    have hagree := margin_agree 0 0 0 0 none none hp hne hrest (Nat.lt_succ_self _) (Nat.lt_succ_self _)
    rw [begin_margin hstart] at hs
    rw [begin_margin (h.start.trans hstart)] at hw
    generalize margin (s.reader.rest.length + 1) s.reader 0 0 none = x at hagree hs
    generalize margin (w.reader.rest.length + 1) w.reader 0 0 none = y at hagree hw
    cases hagree with
    | error => cases hs
    | lost => cases hs
    | @ok x y hxy =>
      obtain ⟨hb, hne₁, -⟩ := hxy
      have hs₁ := behindMargin_ok hs
      have hw₁ := behindMargin_ok hw
      refine ⟨?_, ⟨⟨0, y.1.rest, ?_, ?_, fun h => ?_⟩, ?_, ?_, fun _ => ?_⟩, hs₁.lineStart⟩
      · rw [hs₁.blank_eq, hw₁.blank_eq, holdsNoCode_eq hb hne₁]
      · rw [hw₁.reader]
        rfl
      · rwa [hs₁.reader]
      · rw [hs₁.lineStart] at h
        cases h
      · rw [hs₁.lineStart, hw₁.lineStart]
      · rw [hs₁.brackets, hw₁.brackets, h.brackets]
      · rwa [hs₁.reader]

end Begin

end Evalbox
