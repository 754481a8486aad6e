import Evalbox.Lang.Scan

/-!
# How a text is read

What `Scanner.inLine` does, by the character in front of it, and how `Scanner.next` is made of single steps. Only the
text that is left matters for what is read; where the reader stands matters for reports alone.
-/

namespace Evalbox.Lang

namespace Reader

@[simp] theorem rest_settle (r : Reader) (inToken : Bool) : (r.settle inToken).rest = r.rest := by
  unfold settle
  split <;> rfl

@[simp] theorem rest_skip (r : Reader) (inToken : Bool) : (r.skip inToken).rest = r.rest.tail := by
  have h := r.rest_settle inToken
  unfold skip
  dsimp only
  split
  case h_1 hnil => rw [hnil, ← h, hnil]; rfl
  case h_2 c rest hcons => rw [← h, hcons]; rfl

@[simp] theorem rest_skipMany (r : Reader) (n : Nat) : (r.skipMany n).rest = r.rest.drop n := by
  induction n generalizing r with
  | zero => rfl
  | succ n ih => rw [skipMany, ih, rest_skip, List.drop_tail]

end Reader

namespace Scanner

section InLine

/-! What a step of `inLine` does, by the character in front of it. -/

variable {s : Scanner} {c : Char} {rest : List Char} {fuel : Nat} {blank : Bool}

theorem inLine_end (fuel : Nat) (blank : Bool) (h : s.reader.rest = []) : ∃ r t, r.rest = [] ∧ t.lexeme = .finish ∧
    inLine (fuel + 1) s blank =
      if s.brackets.isEmpty then .ok (some t, { s with reader := r }) else .error (r, .endOfText) := by
  refine ⟨s.reader.settle false, { s with reader := s.reader.settle false }.mark .finish, ?_, rfl, ?_⟩
  · rw [Reader.rest_settle, h]
  · rw [inLine]
    simp only [Reader.rest_settle, h]

theorem inLine_blank (fuel : Nat) (blank : Bool) (h : s.reader.rest = c :: rest)
    (hc : c = ' ' ∨ c = '\t' ∨ c = '\x0c') :
    ∃ r, r.rest = rest ∧ inLine (fuel + 1) s blank = inLine fuel { s with reader := r } blank := by
  refine ⟨(s.reader.settle false).skip false, ?_, ?_⟩
  · rw [Reader.rest_skip, Reader.rest_settle, h, List.tail_cons]
  · rw [inLine]
    simp only [Reader.rest_settle, h]
    rw [if_pos (by simpa [or_assoc] using hc)]

theorem inLine_row (fuel : Nat) (blank : Bool) (h : s.reader.rest = c :: rest) (hc : c = '\n' ∨ c = '#') :
    ∃ r t, r.rest = (s.reader.rest.dropWhile (· ≠ '\n')).tail ∧ t.lexeme = .newline ∧
      inLine (fuel + 1) s blank = .ok (if blank || !s.brackets.isEmpty then none else some t,
        { s with reader := r, lineStart := true }) := by
  have hdrop (text : List Char) : text.drop (text.takeWhile (· ≠ '\n')).length = text.dropWhile (· ≠ '\n') := by
    have h : (text.takeWhile (· ≠ '\n') ++ text.dropWhile (· ≠ '\n')).drop (text.takeWhile (· ≠ '\n')).length =
      text.dropWhile (· ≠ '\n') := List.drop_left
    rwa [List.takeWhile_append_dropWhile] at h
  let r := s.reader.settle false
  let atEnd := r.skipMany (r.rest.takeWhile (· ≠ '\n')).length
  refine ⟨atEnd.skip true, ⟨.newline, r.place.line, r.place.line, some ⟨r.place, atEnd.place⟩,
    (atEnd.skip true).cursor, 0, none⟩, ?_, rfl, ?_⟩
  · rw [Reader.rest_skip, Reader.rest_skipMany, hdrop, Reader.rest_settle]
  · have hblank : ¬(c = ' ' || c = '\t' || c = '\x0c') = true := by rcases hc with rfl | rfl <;> decide
    rw [inLine]
    simp only [Reader.rest_settle, h]
    rw [if_neg hblank, if_pos (by simpa using hc)]
    simp only [r, atEnd, Reader.rest_settle, h]
    split <;> rfl

theorem inLine_word (h : s.reader.rest = c :: rest) (hc : (Numeral.continuesWord c && !c.isDigit) = true) :
    inLine (fuel + 1) s blank = (s.word (s.reader.settle false)).map fun (t, s) => (some t, s) := by
  have hother (d : Char) (hd : Numeral.continuesWord d = false) : c ≠ d := fun hcd => by simp [hcd, hd] at hc
  have hblank : ¬(c = ' ' || c = '\t' || c = '\x0c') = true := by
    simp [hother ' ' rfl, hother '\t' rfl, hother '\x0c' rfl]
  have hrow : ¬(c = '\n' || c = '#') = true := by simp [hother '\n' rfl, hother '#' rfl]
  rw [inLine]
  simp only [Reader.rest_settle, h]
  rw [if_neg hblank, if_neg hrow, if_pos hc]

theorem inLine_number (h : s.reader.rest = c :: rest)
    (hc : (c.isDigit || (c = '.' && (rest.head?.map Char.isDigit).getD false)) = true) :
    inLine (fuel + 1) s blank = (s.number (s.reader.settle false)).map fun (t, s) => (some t, s) := by
  have hor : c.isDigit = true ∨ c = '.' := by
    rcases Bool.or_eq_true_iff.mp hc with hd | hp
    · exact .inl hd
    · exact .inr (by simpa using (Bool.and_eq_true_iff.mp hp).1)
  have hother (d : Char) (hd : d.isDigit = false) (hp : d ≠ '.') : c ≠ d := fun hcd => by
    subst hcd
    rcases hor with h | h
    · rw [hd] at h
      cases h
    · exact hp h
  have hblank : ¬(c = ' ' || c = '\t' || c = '\x0c') = true := by
    simp [hother ' ' rfl (by decide), hother '\t' rfl (by decide), hother '\x0c' rfl (by decide)]
  have hrow : ¬(c = '\n' || c = '#') = true := by simp [hother '\n' rfl (by decide), hother '#' rfl (by decide)]
  have hword : ¬(Numeral.continuesWord c && !c.isDigit) = true := by
    rcases hor with h | rfl
    · simp [h]
    · decide
  rw [inLine]
  simp only [Reader.rest_settle, h]
  rw [if_neg hblank, if_neg hrow, if_neg hword, if_pos hc]

theorem inLine_quote (h : s.reader.rest = c :: rest) (hc : c = '\'' ∨ c = '"') :
    inLine (fuel + 1) s blank = (s.string (s.reader.settle false) 0).map fun (t, s) => (some t, s) := by
  have hblank : ¬(c = ' ' || c = '\t' || c = '\x0c') = true := by rcases hc with rfl | rfl <;> decide
  have hrow : ¬(c = '\n' || c = '#') = true := by rcases hc with rfl | rfl <;> decide
  have hword : ¬(Numeral.continuesWord c && !c.isDigit) = true := by rcases hc with rfl | rfl <;> decide
  have hnumber : ¬(c.isDigit || (c = '.' && (rest.head?.map Char.isDigit).getD false)) = true := by
    rcases hc with rfl | rfl <;> exact Bool.false_ne_true
  rw [inLine]
  simp only [Reader.rest_settle, h]
  rw [if_neg hblank, if_neg hrow, if_neg hword, if_neg hnumber, if_pos (by simpa using hc)]

theorem inLine_backslash (h : s.reader.rest = '\\' :: rest) : inLine (fuel + 1) s blank =
    match continueLine ((s.reader.settle false).skip true) true with
    | .ok r => inLine fuel { s with reader := r } blank
    | .error e => .error e := by
  rw [inLine]
  simp only [Reader.rest_settle, h]
  rfl

/-- The characters that no other token begins with. -/
structure Other (c : Char) (rest : List Char) : Prop where
  blank : c ≠ ' ' ∧ c ≠ '\t' ∧ c ≠ '\x0c'
  row : c ≠ '\n' ∧ c ≠ '#'
  word : ¬(Numeral.continuesWord c && !c.isDigit) = true
  number : ¬(c.isDigit || (c = '.' && (rest.head?.map Char.isDigit).getD false)) = true
  quote : c ≠ '\'' ∧ c ≠ '"'
  backslash : c ≠ '\\'

/-- A symbol, or a character that no token begins with. -/
def symbolOrStray (s : Scanner) (r : Reader) (c : Char) : Except (Reader × Stop) (Option Token × Scanner) :=
  match Sym.longest? r.rest with
  | some (sym, n) => (s.bracket r sym).map fun s' =>
      (some (s'.take r (.symbol sym) n none).1, (s'.take r (.symbol sym) n none).2)
  | none =>
    if Text.isPrintable c then .ok (some (s.take r .stray 1 none).1, (s.take r .stray 1 none).2)
    else .error (fault (r.skipMany 1) ("invalid non-printable character U+" ++ hexCode c))

theorem inLine_symbol (h : s.reader.rest = c :: rest) (hc : Other c rest) :
    inLine (fuel + 1) s blank = s.symbolOrStray (s.reader.settle false) c := by
  rw [inLine, symbolOrStray]
  simp only [Reader.rest_settle, h]
  rw [if_neg (by simpa [or_assoc] using hc.blank), if_neg (by simpa using hc.row), if_neg hc.word, if_neg hc.number,
    if_neg (by simpa using hc.quote)]
  exact if_neg hc.backslash

/-- What a character in front of the reader can be. -/
theorem glance (c : Char) (rest : List Char) : (c = ' ' ∨ c = '\t' ∨ c = '\x0c') ∨ (c = '\n' ∨ c = '#') ∨
    (Numeral.continuesWord c && !c.isDigit) = true ∨
    (c.isDigit || (c = '.' && (rest.head?.map Char.isDigit).getD false)) = true ∨ (c = '\'' ∨ c = '"') ∨ c = '\\' ∨
    Other c rest := by
  refine Classical.byContradiction fun h => ?_
  simp only [not_or] at h
  obtain ⟨hblank, hrow, hword, hnumber, hquote, hbackslash, hother⟩ := h
  exact hother ⟨hblank, hrow, hword, hnumber, hquote, hbackslash⟩

/-- Blanks in front of a token are passed. -/
theorem inLine_blanks {fuel k : Nat} {w : Scanner} {p : List Char} (blank : Bool)
    (hw : w.reader.rest = List.replicate k ' ' ++ p) (hf : w.reader.rest.length < fuel) :
    ∃ fuel' r, r.rest = p ∧ p.length < fuel' ∧ inLine fuel w blank = inLine fuel' { w with reader := r } blank := by
  induction k generalizing fuel w with
  | zero => exact ⟨fuel, w.reader, hw, by rwa [hw] at hf, rfl⟩
  | succ k ih =>
    obtain ⟨fuel, rfl⟩ : ∃ n, fuel = n + 1 := ⟨fuel - 1, by omega⟩
    obtain ⟨r, hr, heq⟩ := inLine_blank fuel blank hw (.inl rfl)
    have hf' : r.rest.length < fuel := by
      rw [hr]
      rw [hw] at hf
      exact Nat.lt_of_succ_lt_succ hf
    obtain ⟨fuel', r', hr', hp, heq'⟩ := ih (w := { w with reader := r }) hr hf'
    exact ⟨fuel', r', hr', hp, heq.trans heq'⟩

end InLine

section Begin

/-- The levels of two scanners are the same. -/
def SameLevels (s s' : Scanner) : Prop := s'.pending = s.pending ∧ s'.levels = s.levels

/-- Whether a row holds no code behind its margin. -/
def holdsNoCode : List Char → Bool
  | c :: _ => c = '#' || c = '\n'
  | [] => false

/-- What the margin of a row says about the open levels. Answers whether the row holds no code. -/
def behindMargin (s : Scanner) (r : Reader) (m : Nat × Nat) : Except (Reader × Stop) (Scanner × Bool) :=
  if holdsNoCode r.rest || !s.brackets.isEmpty then
    .ok ({ s with lineStart := false, reader := r }, holdsNoCode r.rest)
  else ({ s with lineStart := false, reader := r }.reindent r m.1 m.2).map fun s => (s, false)

/-- The start of a row. -/
def begin (s : Scanner) : Except (Reader × Stop) (Scanner × Bool) :=
  if s.lineStart then
    match margin (s.reader.rest.length + 1) s.reader 0 0 none with
    | .error e => .error e
    | .ok (r, m) => s.behindMargin r m
  else .ok (s, false)

theorem begin_inside {s : Scanner} (hs : s.lineStart = false) : begin s = .ok (s, false) := by
  rw [begin, hs]
  rfl

theorem begin_margin {s : Scanner} (hs : s.lineStart = true) : begin s =
    match margin (s.reader.rest.length + 1) s.reader 0 0 none with
    | .error e => .error e
    | .ok (r, m) => s.behindMargin r m := if_pos hs

/-- What comes behind the start of a row: indents and dedents that are still to be handed over, or a token inside the
line. -/
def emit (s : Scanner) (blank : Bool) : Except (Reader × Stop) (Option Token × Scanner) :=
  if s.pending < 0 then .ok (some (s.mark .dedent), { s with pending := s.pending + 1 })
  else if s.pending > 0 then .ok (some (s.mark .indent), { s with pending := s.pending - 1 })
  else inLine (s.reader.rest.length + 1) s blank

/-- A step of `next`: a token, or the end of a row without code. -/
def step (s : Scanner) : Except (Reader × Stop) (Option Token × Scanner) :=
  match begin s with
  | .error e => .error e
  | .ok (s, blank) => emit s blank

/-- What a step that succeeds does. -/
theorem step_cases {s s' : Scanner} {t : Option Token} (h : step s = .ok (t, s')) :
    ∃ s₁ blank, begin s = .ok (s₁, blank) ∧
      ((∃ n u, t = some u ∧ u.lexeme ≠ .finish ∧ s₁.pending ≠ 0 ∧ s' = { s₁ with pending := n }) ∨
        s₁.pending = 0 ∧ inLine (s₁.reader.rest.length + 1) s₁ blank = .ok (t, s')) := by
  rw [step] at h
  split at h
  · cases h
  · case _ s₁ blank hb =>
    refine ⟨s₁, blank, hb, ?_⟩
    rw [emit] at h
    split at h
    · obtain ⟨rfl, rfl⟩ := Prod.mk.inj (Except.ok.inj h)
      exact .inl ⟨_, _, rfl, (fun h => nomatch h), by omega, rfl⟩
    · split at h
      · obtain ⟨rfl, rfl⟩ := Prod.mk.inj (Except.ok.inj h)
        exact .inl ⟨_, _, rfl, (fun h => nomatch h), by omega, rfl⟩
      · exact .inr ⟨by omega, h⟩

/-- What can be wrong with a step. -/
theorem step_error {s : Scanner} {e : Reader × Stop} (h : step s = .error e) : begin s = .error e ∨
    ∃ s₁ blank, begin s = .ok (s₁, blank) ∧ s₁.pending = 0 ∧
      inLine (s₁.reader.rest.length + 1) s₁ blank = .error e := by
  rw [step] at h
  split at h
  · exact .inl (Except.error.inj h ▸ ‹_›)
  · case _ s₁ blank hb =>
    refine .inr ⟨s₁, blank, hb, ?_⟩
    rw [emit] at h
    split at h
    · cases h
    · split at h
      · cases h
      · exact ⟨by omega, h⟩

theorem next_begin (fuel : Nat) (s : Scanner) : next (fuel + 1) s = (do
    let (s, blank) ← begin s
    if s.pending < 0 then return (s.mark .dedent, { s with pending := s.pending + 1 })
    if s.pending > 0 then return (s.mark .indent, { s with pending := s.pending - 1 })
    let (t, s) ← inLine (s.reader.rest.length + 1) s blank
    match t with
    | some t => return (t, s)
    | none => next fuel s) := by
  rw [next, begin]
  by_cases hs : s.lineStart = true
  · rw [if_pos hs, if_pos hs]
    cases margin (s.reader.rest.length + 1) s.reader 0 0 none with
    | error e => rfl
    | ok x =>
      obtain ⟨r, col, alt⟩ := x
      simp only [bind, Except.bind, pure, Except.pure, behindMargin]
      by_cases hb : (holdsNoCode r.rest || !s.brackets.isEmpty) = true
      · rw [if_pos hb]
        exact if_pos hb
      · rw [if_neg hb]
        refine (if_neg hb).trans ?_
        cases Scanner.reindent _ r col alt <;> rfl
  · rw [if_neg hs, if_neg hs]
    rfl

theorem next_succ (fuel : Nat) (s : Scanner) : next (fuel + 1) s =
    match step s with
    | .error e => .error e
    | .ok (some t, s) => .ok (t, s)
    | .ok (none, s) => next fuel s := by
  rw [next_begin, step]
  cases begin s with
  | error e => rfl
  | ok x =>
    obtain ⟨s, blank⟩ := x
    simp only [emit, bind, Except.bind, pure, Except.pure]
    split
    · rfl
    · split
      · rfl
      · cases inLine (s.reader.rest.length + 1) s blank with
        | error e => rfl
        | ok x => obtain ⟨_ | t, s⟩ := x <;> rfl

/-- Which texts can be read on behind a backslash. -/
theorem continueLine_eq (r : Reader) (inToken : Bool) :
    (∃ c rest r', r.rest = '\n' :: c :: rest ∧ r'.rest = c :: rest ∧ continueLine r inToken = .ok r') ∨
      (∀ c rest, r.rest ≠ '\n' :: c :: rest) ∧ ∃ r' stop, continueLine r inToken = .error (r', stop) ∧
        (stop = .endOfText ∨ stop = .continuation) := by
  rw [continueLine]
  split
  case h_1 rest h =>
    cases rest with
    | nil => exact .inr ⟨by simp [h], r.skip true, .endOfText, if_pos (by simp [h]), .inl rfl⟩
    | cons c rest => exact .inl ⟨c, rest, (r.skip true).settle inToken, h, by simp [h], if_neg (by simp [h])⟩
  case h_2 h => exact .inr ⟨fun c rest hr => h _ hr, r.skip true, .continuation, rfl, .inr rfl⟩

end Begin

section Margin

/-! What a step of `margin` does, by the character in front of it. -/

variable {r : Reader} {c : Char} {rest : List Char} (fuel col alt : Nat) (kept : Option Nat)

/-- The two measures of a margin behind one more character. -/
def measure (c : Char) (col alt : Nat) : Nat × Nat :=
  if c = ' ' then (col + 1, alt + 1) else if c = '\t' then ((col / 8 + 1) * 8, alt + 1) else (0, 0)

/-- The measures of a whole margin: those in front of a backslash, if they are not nought. -/
def measured (kept : Option Nat) (col alt : Nat) : Nat × Nat :=
  match kept with
  | some (n + 1) => (n + 1, n + 1)
  | _ => (col, alt)

/-- What is kept at a backslash: the measure in front of the first one that stands behind a blank. -/
def margined (kept : Option Nat) (col : Nat) : Nat :=
  match kept with
  | some (n + 1) => n + 1
  | _ => col

theorem margin_blank (h : r.rest = c :: rest) (hc : c = ' ' ∨ c = '\t' ∨ c = '\x0c') : ∃ r', r'.rest = rest ∧
    margin (fuel + 1) r col alt kept = margin fuel r' (measure c col alt).1 (measure c col alt).2 kept := by
  refine ⟨(r.settle false).skip false, by simp [h], ?_⟩
  rw [margin.eq_def]
  simp only [Reader.rest_settle, h]
  rcases hc with rfl | rfl | rfl <;> rfl

theorem margin_backslash (h : r.rest = '\\' :: rest) : ∃ r', r'.rest = rest ∧ margin (fuel + 1) r col alt kept =
    match continueLine r' false with
    | .ok r => margin fuel r col alt (some (margined kept col))
    | .error e => .error e := by
  refine ⟨(r.settle false).skip false, by simp [h], ?_⟩
  rw [margin.eq_def]
  simp only [Reader.rest_settle, h]
  rfl

theorem margin_stop (h : ∀ c rest, r.rest = c :: rest → c ≠ ' ' ∧ c ≠ '\t' ∧ c ≠ '\x0c' ∧ c ≠ '\\') :
    ∃ r', r'.rest = r.rest ∧ margin (fuel + 1) r col alt kept = .ok (r', measured kept col alt) := by
  refine ⟨r.settle false, by simp, ?_⟩
  rw [margin.eq_def]
  simp only [Reader.rest_settle]
  split
  · obtain ⟨h, -⟩ := h _ _ ‹_›
    exact absurd rfl h
  · obtain ⟨-, h, -⟩ := h _ _ ‹_›
    exact absurd rfl h
  · obtain ⟨-, -, h, -⟩ := h _ _ ‹_›
    exact absurd rfl h
  · obtain ⟨-, -, -, h⟩ := h _ _ ‹_›
    exact absurd rfl h
  · rcases kept with _ | _ | n <;> rfl

/-- What can stand in front of a reader in a margin. -/
theorem margin_glance (text : List Char) : (∃ c rest, text = c :: rest ∧ (c = ' ' ∨ c = '\t' ∨ c = '\x0c')) ∨
    (∃ rest, text = '\\' :: rest) ∨
      ∀ c rest, text = c :: rest → c ≠ ' ' ∧ c ≠ '\t' ∧ c ≠ '\x0c' ∧ c ≠ '\\' := by
  cases text with
  | nil => exact .inr (.inr fun c rest h => nomatch h)
  | cons c rest =>
    by_cases hblank : c = ' ' ∨ c = '\t' ∨ c = '\x0c'
    · exact .inl ⟨c, rest, rfl, hblank⟩
    · by_cases hbackslash : c = '\\'
      · exact .inr (.inl ⟨rest, by rw [hbackslash]⟩)
      · refine .inr (.inr fun d rest h => ?_)
        obtain ⟨rfl, rfl⟩ := List.cons.inj h
        simp only [not_or] at hblank
        exact ⟨hblank.1, hblank.2.1, hblank.2.2, hbackslash⟩

/-- Blanks widen a margin. -/
theorem margin_blanks {fuel k : Nat} {r : Reader} {p : List Char} (col alt : Nat) (kept : Option Nat)
    (hr : r.rest = List.replicate k ' ' ++ p) (hf : r.rest.length < fuel) : ∃ fuel' r', r'.rest = p ∧ p.length < fuel' ∧
      margin fuel r col alt kept = margin fuel' r' (col + k) (alt + k) kept := by
  induction k generalizing fuel r col alt with
  | zero => exact ⟨fuel, r, hr, by rwa [hr] at hf, rfl⟩
  | succ k ih =>
    obtain ⟨fuel, rfl⟩ : ∃ n, fuel = n + 1 := ⟨fuel - 1, by omega⟩
    obtain ⟨r₁, hr₁, heq⟩ := margin_blank fuel col alt kept hr (.inl rfl)
    have hf' : r₁.rest.length < fuel := by
      rw [hr₁]
      rw [hr] at hf
      exact Nat.lt_of_succ_lt_succ hf
    obtain ⟨fuel', r', hr', hp, heq'⟩ := ih (col + 1) (alt + 1) hr₁ hf'
    refine ⟨fuel', r', hr', hp, ?_⟩
    rw [Nat.add_comm k, ← Nat.add_assoc, ← Nat.add_assoc]
    exact heq.trans heq'

/-- Behind a margin stands what is left of the text. -/
theorem margin_suffix {fuel col alt : Nat} {kept : Option Nat} {r' : Reader} {m : Nat × Nat}
    (h : margin fuel r col alt kept = .ok (r', m)) :
    r'.rest <:+ r.rest := by
  induction fuel generalizing r col alt kept with
  | zero =>
    cases h
    exact List.suffix_refl _
  | succ fuel ih =>
    rcases margin_glance r.rest with ⟨c, rest, hr, hc⟩ | ⟨rest, hr⟩ | hstop
    · obtain ⟨r₁, hr₁, heq⟩ := margin_blank fuel col alt kept hr hc
      have hsuffix := ih (heq ▸ h)
      rw [hr₁] at hsuffix
      rw [hr]
      exact hsuffix.trans (List.suffix_cons c rest)
    · obtain ⟨r₁, hr₁, heq⟩ := margin_backslash fuel col alt kept hr
      rw [heq] at h
      rcases continueLine_eq r₁ false with ⟨c, rest', r₂, hr₁', hr₂, hc⟩ | ⟨-, r₂, stop, hc, -⟩
      · simp only [hc] at h
        have hsuffix := ih h
        rw [hr₂] at hsuffix
        rw [hr, ← hr₁, hr₁']
        exact hsuffix.trans (List.suffix_append ['\\', '\n'] (c :: rest'))
      · simp only [hc] at h
        cases h
    · obtain ⟨r₁, hr₁, heq⟩ := margin_stop fuel col alt kept hstop
      rw [heq] at h
      cases h
      exact hr₁ ▸ List.suffix_refl r.rest

end Margin

section Levels

/-- What comparing a margin with the open levels leaves as it is. -/
theorem reindent_frame {s s' : Scanner} {r : Reader} {col alt : Nat} (h : s.reindent r col alt = .ok s') :
    s'.reader = r ∧ s'.lineStart = s.lineStart ∧ s'.brackets = s.brackets := by
  rw [reindent] at h
  dsimp only at h
  split at h
  · split at h
    · cases h
      exact ⟨rfl, rfl, rfl⟩
    · cases h
  · split at h
    · split at h
      · cases h
      · split at h
        · cases h
        · cases h
          exact ⟨rfl, rfl, rfl⟩
    · split at h
      · cases h
      · split at h
        · cases h
        · cases h
          exact ⟨rfl, rfl, rfl⟩

/-- A margin can only be wrong in its layout. -/
theorem reindent_error {s s' : Scanner} {r r' : Reader} {col alt : Nat} {stop : Stop}
    (h : s.reindent r col alt = .error (r', stop)) : (s'.halt r' stop).rejection.kind ≠ .grammar := by
  rw [reindent] at h
  dsimp only at h
  split at h
  · split at h
    · cases h
    · cases h
      exact fun h => nomatch h
  · split at h
    · split at h
      · cases h
        exact fun h => nomatch h
      · split at h
        · cases h
          exact fun h => nomatch h
        · cases h
    · split at h
      · cases h
        exact fun h => nomatch h
      · split at h
        · cases h
          exact fun h => nomatch h
        · cases h

theorem behindMargin_error {s s' : Scanner} {r r' : Reader} {m : Nat × Nat} {stop : Stop}
    (h : s.behindMargin r m = .error (r', stop)) : (s'.halt r' stop).rejection.kind ≠ .grammar := by
  rw [behindMargin] at h
  split at h
  · cases h
  · cases hr : Scanner.reindent { s with lineStart := false, reader := r } r m.1 m.2 with
    | error e =>
      rw [hr] at h
      obtain rfl := Except.error.inj h
      exact reindent_error hr
    | ok s₁ =>
      rw [hr] at h
      cases h

/-- Where a scanner stands behind a margin. -/
structure Behind (s : Scanner) (r : Reader) (s' : Scanner) (blank : Bool) : Prop where
  reader : s'.reader = r
  lineStart : s'.lineStart = false
  brackets : s'.brackets = s.brackets
  blank_eq : blank = holdsNoCode r.rest
  /-- A row without code, or inside brackets, says nothing about the levels. -/
  levels : blank = true ∨ s.brackets ≠ [] → SameLevels s s'

/-- Only rows that hold code outside of brackets are compared with the open levels. -/
theorem behindMargin_cases {s s' : Scanner} {r : Reader} {m : Nat × Nat} {blank : Bool}
    (h : s.behindMargin r m = .ok (s', blank)) :
    (holdsNoCode r.rest || !s.brackets.isEmpty) = true ∧ s' = { s with lineStart := false, reader := r } ∧
        blank = holdsNoCode r.rest ∨
      holdsNoCode r.rest = false ∧ s.brackets = [] ∧ blank = false ∧
        Scanner.reindent { s with lineStart := false, reader := r } r m.1 m.2 = .ok s' := by
  rw [behindMargin] at h
  split at h
  case isTrue hb =>
    obtain ⟨rfl, rfl⟩ := Prod.mk.inj (Except.ok.inj h)
    exact .inl ⟨hb, rfl, rfl⟩
  case isFalse hb =>
    simp only [Bool.or_eq_true, not_or, Bool.not_eq_true] at hb
    cases hr : Scanner.reindent { s with lineStart := false, reader := r } r m.1 m.2 with
    | error e =>
      rw [hr] at h
      cases h
    | ok s₁ =>
      rw [hr] at h
      obtain ⟨rfl, rfl⟩ := Prod.mk.inj (Except.ok.inj h)
      exact .inr ⟨hb.1, by simpa using hb.2, rfl, rfl⟩

theorem behindMargin_ok {s s' : Scanner} {r : Reader} {m : Nat × Nat} {blank : Bool}
    (h : s.behindMargin r m = .ok (s', blank)) : Behind s r s' blank := by
  rcases behindMargin_cases h with ⟨-, rfl, rfl⟩ | ⟨hcode, hnil, rfl, hr⟩
  · exact ⟨rfl, rfl, rfl, rfl, fun _ => ⟨rfl, rfl⟩⟩
  · obtain ⟨hreader, hstart, hbrackets⟩ := reindent_frame hr
    refine ⟨hreader, hstart, hbrackets, hcode.symm, fun hlevels => ?_⟩
    rcases hlevels with h | h
    · cases h
    · exact absurd hnil h

/-- What the start of a row leaves. -/
theorem begin_frame {s s' : Scanner} {blank : Bool} (h : begin s = .ok (s', blank)) :
    s'.reader.rest <:+ s.reader.rest ∧ s'.lineStart = false ∧ s'.brackets = s.brackets ∧
      (blank = true → SameLevels s s') := by
  cases hs : s.lineStart with
  | false =>
    obtain ⟨rfl, rfl⟩ := Prod.mk.inj (Except.ok.inj ((begin_inside hs).symm.trans h))
    exact ⟨List.suffix_refl _, hs, rfl, fun _ => ⟨rfl, rfl⟩⟩
  | true =>
    rw [begin_margin hs] at h
    split at h
    · cases h
    · case _ r m hm =>
      have hb := behindMargin_ok h
      refine ⟨?_, hb.lineStart, hb.brackets, fun h => hb.levels (.inl h)⟩
      rw [hb.reader]
      exact margin_suffix hm

end Levels

section Frame

/-! Only the start of a row changes the open levels, and what is still to be handed over. -/

variable {s s' : Scanner} {r : Reader} {t : Token}

/-- Whether a quote is in front of a text. -/
def quoteAhead : List Char → Bool
  | c :: _ => c = '\'' || c = '"'
  | [] => false

/-- A word whose letters are known. -/
theorem word_eq (s : Scanner) (r : Reader) {letters : List Char}
    (hl : r.rest.takeWhile Numeral.continuesWord = letters) :
    s.word r = if quoteAhead (r.rest.drop letters.length) && stringLetters.contains (letters.map Char.toLower) then
        s.string r letters.length
      else match badIdentifier? letters with
        | some (i, c) => .error (fault (r.skipMany (i + 1)) (badCharacter c))
        | none => match Keyword.ofText? (String.ofList letters) with
          | some k => .ok (s.take r (.word k) letters.length none)
          | none => .ok (s.take r (.name (String.ofList letters)) letters.length none) := by
  subst hl
  rfl

/-- A lexeme that says nothing about the layout, the ends of rows apart. -/
def Plain (l : Lexeme) : Prop := l ≠ .finish ∧ l ≠ .indent ∧ l ≠ .dedent

/-- What reading a token of a line does to a scanner. -/
structure Kept (s : Scanner) (r : Reader) (x : Token × Scanner) : Prop where
  lexeme : Plain x.1.lexeme
  lineStart : x.2.lineStart = s.lineStart
  levels : SameLevels s x.2
  rest : x.2.reader.rest <:+ r.rest

theorem Kept.take {lexeme : Lexeme} {n : Nat} {warning : Option String} (hl : Plain lexeme) :
    Kept s r (s.take r lexeme n warning) := by
  refine ⟨hl, rfl, ⟨rfl, rfl⟩, ?_⟩
  show (r.skipMany n).rest <:+ r.rest
  rw [Reader.rest_skipMany]
  exact List.drop_suffix n r.rest

theorem string_kept {letters : Nat} {x : Token × Scanner} (h : s.string r letters = .ok x) : Kept s r x := by
  rw [string] at h
  split at h
  · obtain rfl := Except.ok.inj h
    exact .take (by simp [Plain])
  · cases h

theorem number_kept {x : Token × Scanner} (h : s.number r = .ok x) : Kept s r x := by
  rw [number] at h
  split at h
  · obtain rfl := Except.ok.inj h
    exact .take (by simp [Plain])
  · cases h
  · cases h

theorem word_kept {x : Token × Scanner} (h : s.word r = .ok x) : Kept s r x := by
  rw [word_eq s r rfl] at h
  split at h
  · exact string_kept h
  · split at h
    · cases h
    · split at h
      all_goals
        obtain rfl := Except.ok.inj h
        exact .take (by simp [Plain])

theorem bracket_frame {sym : Sym} (h : s.bracket r sym = .ok s') : SameLevels s s' ∧ s'.lineStart = s.lineStart := by
  rw [bracket.eq_def] at h
  cases sym
  case lpar | lsqb | lbrace =>
    dsimp only at h
    split at h
    · cases h
    · obtain rfl := Except.ok.inj h
      exact ⟨⟨rfl, rfl⟩, rfl⟩
  case rpar | rsqb | rbrace =>
    dsimp only at h
    split at h
    · cases h
    · split at h
      · obtain rfl := Except.ok.inj h
        exact ⟨⟨rfl, rfl⟩, rfl⟩
      · cases h
  all_goals
    obtain rfl := Except.ok.inj h
    exact ⟨⟨rfl, rfl⟩, rfl⟩

theorem symbolOrStray_kept {c : Char} {u : Option Token} (h : s.symbolOrStray r c = .ok (u, s')) :
    ∃ t, u = some t ∧ Kept s r (t, s') := by
  rw [symbolOrStray] at h
  split at h
  · case _ sym n _ =>
    cases hb : s.bracket r sym with
    | error e =>
      rw [hb] at h
      cases h
    | ok s₁ =>
      rw [hb] at h
      obtain ⟨rfl, rfl⟩ := Prod.mk.inj (Except.ok.inj h)
      obtain ⟨⟨hp, hl⟩, hs⟩ := bracket_frame hb
      have hk : Kept s₁ r (s₁.take r (.symbol sym) n none) := .take (by simp [Plain])
      exact ⟨_, rfl, hk.lexeme, hk.lineStart.trans hs, ⟨hk.levels.1.trans hp, hk.levels.2.trans hl⟩, hk.rest⟩
  · split at h
    · obtain ⟨rfl, rfl⟩ := Prod.mk.inj (Except.ok.inj h)
      exact ⟨_, rfl, .take (by simp [Plain])⟩
    · cases h

theorem of_map_some {x : Except (Reader × Stop) (Token × Scanner)} {u : Option Token}
    (h : (x.map fun (t, s) => (some t, s)) = .ok (u, s')) : ∃ t, u = some t ∧ x = .ok (t, s') := by
  cases x with
  | error e => cases h
  | ok y =>
    obtain ⟨rfl, rfl⟩ := Prod.mk.inj (Except.ok.inj h)
    exact ⟨y.1, rfl, rfl⟩

/-- What `inLine` comes to behind blanks and continued lines. -/
inductive Stops (s : Scanner) (blank : Bool) : Option Token → Scanner → Prop
  | finish {r : Reader} {t : Token} (hs : s.reader.rest = []) (hr : r.rest = []) (hb : s.brackets = [])
      (ht : t.lexeme = .finish) : Stops s blank (some t) { s with reader := r }
  | row {r : Reader} {t : Token} (hs : s.reader.rest ≠ []) (hr : r.rest = (s.reader.rest.dropWhile (· ≠ '\n')).tail)
      (ht : t.lexeme = .newline) :
      Stops s blank (if blank || !s.brackets.isEmpty then none else some t) { s with reader := r, lineStart := true }
  | token {t : Token} {s' : Scanner} (hk : Kept s s.reader (t, s')) : Stops s blank (some t) s'

/-- Behind blanks and continued lines is the end of the text, the end of a row, or a token. -/
theorem inLine_stops {fuel : Nat} {blank : Bool} {u : Option Token} (hf : s.reader.rest.length < fuel)
    (h : inLine fuel s blank = .ok (u, s')) : ∃ r, r.rest <:+ s.reader.rest ∧
      (s.reader.rest.getLast? = some '\n' → r.rest.getLast? = some '\n') ∧ Stops { s with reader := r } blank u s' := by
  induction fuel generalizing s with
  | zero => exact absurd hf (Nat.not_lt_zero _)
  | succ fuel ih =>
    have hhere (hstops : Stops s blank u s') : ∃ r, r.rest <:+ s.reader.rest ∧
        (s.reader.rest.getLast? = some '\n' → r.rest.getLast? = some '\n') ∧
          Stops { s with reader := r } blank u s' := ⟨s.reader, List.suffix_refl _, id, hstops⟩
    have htoken {t : Token} (hu : u = some t) (hk : Kept s (s.reader.settle false) (t, s')) : Stops s blank u s' := by
      rw [hu]
      exact .token ⟨hk.lexeme, hk.lineStart, hk.levels, Reader.rest_settle s.reader false ▸ hk.rest⟩
    -- `front` is what is passed in front of a reader `r`
    have hpass {r : Reader} (front : List Char) (hr : s.reader.rest = front ++ r.rest) (hfront : front ≠ [])
        (hn : front.getLast? = some '\n' → r.rest ≠ []) (h : inLine fuel { s with reader := r } blank = .ok (u, s')) :
        ∃ r, r.rest <:+ s.reader.rest ∧ (s.reader.rest.getLast? = some '\n' → r.rest.getLast? = some '\n') ∧
          Stops { s with reader := r } blank u s' := by
      have hlen : r.rest.length < fuel := by
        have := List.length_pos_iff.mpr hfront
        rw [hr, List.length_append] at hf
        omega
      obtain ⟨r', hr', hlast, hstops⟩ := ih (s := { s with reader := r }) hlen h
      refine ⟨r', hr ▸ hr'.trans (List.suffix_append front r.rest), fun h => hlast ?_, hstops⟩
      show r.rest.getLast? = some '\n'
      rw [hr, List.getLast?_append] at h
      cases hl : r.rest.getLast? with
      | none => exact absurd (List.getLast?_eq_none_iff.mp hl) (hn (by simpa [hl] using h))
      | some c => simpa [hl] using h
    cases hs : s.reader.rest with
    | nil =>
      obtain ⟨r, t, hr, ht, heq⟩ := inLine_end fuel blank hs
      rw [heq] at h
      split at h
      case isFalse => cases h
      case isTrue hb =>
        obtain ⟨rfl, rfl⟩ := Prod.mk.inj (Except.ok.inj h)
        exact hs ▸ hhere (.finish hs hr (by simpa using hb) ht)
    | cons c rest =>
      rw [← hs]
      rcases glance c rest with hc | hc | hc | hc | hc | rfl | hc
      · -- only here and behind a backslash the reader goes on
        obtain ⟨r, rfl, heq⟩ := inLine_blank fuel blank hs hc
        have hcn : ¬[c].getLast? = some '\n' := by rcases hc with rfl | rfl | rfl <;> decide
        exact hpass [c] hs (List.cons_ne_nil _ _) (fun h => absurd h hcn) (heq ▸ h)
      · obtain ⟨r, t, hr, ht, heq⟩ := inLine_row fuel blank hs hc
        obtain ⟨rfl, rfl⟩ := Prod.mk.inj (Except.ok.inj (heq.symm.trans h))
        exact hhere (.row (hs ▸ List.cons_ne_nil c rest) hr ht)
      · obtain ⟨t, hu, ht⟩ := of_map_some ((inLine_word hs hc).symm.trans h)
        exact hhere (htoken hu (word_kept ht))
      · obtain ⟨t, hu, ht⟩ := of_map_some ((inLine_number hs hc).symm.trans h)
        exact hhere (htoken hu (number_kept ht))
      · obtain ⟨t, hu, ht⟩ := of_map_some ((inLine_quote hs hc).symm.trans h)
        exact hhere (htoken hu (string_kept ht))
      · rw [inLine_backslash hs] at h
        rcases continueLine_eq ((s.reader.settle false).skip true) true with
          ⟨c, rest', r, hr, hr', hc⟩ | ⟨-, r, stop, hc, -⟩
        · simp only [hc] at h
          have hrest : s.reader.rest = ['\\', '\n'] ++ r.rest := by
            rw [hs, hr']
            simpa [hs] using hr
          exact hpass _ hrest (List.cons_ne_nil _ _) (fun _ => hr' ▸ List.cons_ne_nil c rest') h
        · simp only [hc] at h
          cases h
      · obtain ⟨t, hu, ht⟩ := symbolOrStray_kept ((inLine_symbol hs hc).symm.trans h)
        exact hhere (htoken hu ht)

theorem inLine_frame {fuel : Nat} {blank : Bool} {u : Option Token} (hf : s.reader.rest.length < fuel)
    (h : inLine fuel s blank = .ok (u, s')) : SameLevels s s' := by
  obtain ⟨r, -, -, hstops⟩ := inLine_stops hf h
  cases hstops with
  | finish | row => exact ⟨rfl, rfl⟩
  | token hk => exact hk.levels

/-- A row that ends without a token is read to its end. -/
theorem inLine_none_lt {fuel : Nat} {blank : Bool} (hf : s.reader.rest.length < fuel)
    (h : inLine fuel s blank = .ok (none, s')) : s'.reader.rest.length < s.reader.rest.length := by
  obtain ⟨r, hsuffix, -, hstops⟩ := inLine_stops hf h
  have hlen := hsuffix.length_le
  generalize hu : (none : Option Token) = u at hstops
  cases hstops with
  | row hs hr =>
    have hle := (List.dropWhile_suffix (l := r.rest) (· ≠ '\n')).length_le
    have hpos := List.length_pos_iff.mpr hs
    dsimp only at hr hpos ⊢
    rw [hr, List.length_tail]
    omega
  | _ => cases hu

/-- A step without a token takes something away from the text. -/
theorem step_none_lt {s s' : Scanner} (h : step s = .ok (none, s')) :
    s'.reader.rest.length < s.reader.rest.length := by
  obtain ⟨s₁, blank, hb, ⟨n, u, hu, -⟩ | ⟨-, h⟩⟩ := step_cases h
  · cases hu
  · exact Nat.lt_of_lt_of_le (inLine_none_lt (Nat.lt_succ_self _) h) (begin_frame hb).1.length_le

end Frame

section Runs

/-- A scanner reads tokens one after the other, none of which ends the text. -/
inductive Reads : Scanner → List Token → Scanner → Prop
  | here (s : Scanner) : Reads s [] s
  | pass {s s' s'' : Scanner} {ts : List Token} (h : step s = .ok (none, s')) (hr : Reads s' ts s'') : Reads s ts s''
  | token {s s' s'' : Scanner} {t : Token} {ts : List Token} (h : step s = .ok (some t, s')) (ht : t.lexeme ≠ .finish)
      (hr : Reads s' ts s'') : Reads s (t :: ts) s''

theorem Reads.trans {s s' s'' : Scanner} {ts ts' : List Token} (h : Reads s ts s') (h' : Reads s' ts' s'') :
    Reads s (ts ++ ts') s'' := by
  induction h with
  | here => exact h'
  | pass hs _ ih => exact .pass hs (ih h')
  | token hs ht _ ih => exact .token hs ht (ih h')

/-- `next` passes rows without code, and answers what the step behind them does. -/
theorem next_reads (fuel : Nat) {s : Scanner} (hf : s.reader.rest.length < fuel) : ∃ s₁, Reads s [] s₁ ∧
    ((∃ e, step s₁ = .error e ∧ next fuel s = .error e) ∨
      ∃ t s', step s₁ = .ok (some t, s') ∧ next fuel s = .ok (t, s')) := by
  induction fuel generalizing s with
  | zero => exact absurd hf (Nat.not_lt_zero _)
  | succ fuel ih =>
    rw [next_succ]
    match hs : step s with
    | .error e => exact ⟨s, .here s, .inl ⟨e, hs, rfl⟩⟩
    | .ok (some t, s') => exact ⟨s, .here s, .inr ⟨t, s', hs, rfl⟩⟩
    | .ok (none, s') =>
      have hlt := step_none_lt hs
      obtain ⟨s₁, hr, h⟩ := ih (s := s') (by omega)
      exact ⟨s₁, .pass hs hr, h⟩

/-- How the reading of a text goes on from a scanner. -/
inductive Outcome (s : Scanner) (fuel : Nat) (ts : List Token) (s₁ : Scanner) : List Token → Option Rejection → Prop
  | finished {t : Token} {s' : Scanner} (h : step s₁ = .ok (some t, s')) (ht : t.lexeme = .finish)
      (hf : ts.length < fuel) : Outcome s fuel ts s₁ (ts ++ [t]) none
  | halted {r : Reader} {stop : Stop} (s₂ : Scanner) (h : step s₁ = .error (r, stop)) :
      Outcome s fuel ts s₁ ts (some (s₂.halt r stop).rejection)
  | exhausted (hf : fuel = ts.length) : Outcome s fuel ts s₁ ts none

/-- The tokens that are collected are those that are read, up to the end of the text or a stop. -/
theorem collect_reads (fuel : Nat) (s : Scanner) (acc : Array Token) : ∃ ts s₁ ts', Reads s ts s₁ ∧
    (TokenStream.collect fuel s acc).tokens = acc ++ ts'.toArray ∧
    Outcome s fuel ts s₁ ts' ((TokenStream.collect fuel s acc).halt.map (·.1.rejection)) := by
  induction fuel generalizing s acc with
  | zero => exact ⟨[], s, [], .here s, by simp [TokenStream.collect], .exhausted rfl⟩
  | succ fuel ih =>
    rw [TokenStream.collect]
    obtain ⟨s₁, hr, ⟨⟨r, stop⟩, hs, hn⟩ | ⟨t, s', hs, hn⟩⟩ := next_reads (s.reader.rest.length + 2) (s := s) (by omega)
    · rw [hn]
      exact ⟨[], s₁, [], hr, by simp, .halted s hs⟩
    · rw [hn]
      dsimp only
      by_cases ht : t.lexeme = .finish
      · rw [if_pos ht]
        exact ⟨[], s₁, [t], hr, by simp, .finished hs ht (Nat.succ_pos fuel)⟩
      · rw [if_neg ht]
        obtain ⟨ts, s₂, ts', hr', htokens, ho⟩ := ih s' (acc.push t)
        refine ⟨t :: ts, s₂, t :: ts', hr.trans (.token hs ht hr'), by simp [htokens], ?_⟩
        generalize (TokenStream.collect fuel s' (acc.push t)).halt.map (·.1.rejection) = halt at ho
        cases ho with
        | finished h ht hf => exact .finished h ht (Nat.succ_lt_succ hf)
        | halted s₃ h => exact .halted s₃ h
        | exhausted hf => exact .exhausted (by rw [hf]; rfl)

theorem Reads.lexeme_ne {s s' : Scanner} {ts : List Token} (h : Reads s ts s') : ∀ t ∈ ts, t.lexeme ≠ .finish := by
  induction h with
  | here => exact fun t ht => nomatch ht
  | pass _ _ ih => exact ih
  | token _ ht _ ih => exact List.forall_mem_cons.mpr ⟨ht, ih⟩

/-- A scanner that reads to the end of its text. -/
inductive Ends : Scanner → Prop
  | finish {s s' : Scanner} {t : Token} (h : step s = .ok (some t, s')) (ht : t.lexeme = .finish) : Ends s
  | on {s s' : Scanner} {t : Option Token} (h : step s = .ok (t, s')) (he : Ends s') : Ends s

theorem Ends.exists_step {s : Scanner} (h : Ends s) :
    ∃ t s', step s = .ok (t, s') ∧ ((∃ u, t = some u ∧ u.lexeme = .finish) ∨ Ends s') := by
  cases h with
  | finish h ht => exact ⟨_, _, h, .inl ⟨_, rfl, ht⟩⟩
  | on h he => exact ⟨_, _, h, .inr he⟩

/-- Behind the margin of a row that holds code the scanner goes on as before. -/
theorem step_of_begin {s s₁ : Scanner} (h : begin s = .ok (s₁, false)) : step s₁ = step s := by
  rw [step, step, h, begin_inside (begin_frame h).2.1]

theorem Ends.of_begin {s s₁ : Scanner} (h : begin s = .ok (s₁, false)) (he : Ends s) : Ends s₁ := by
  obtain ⟨t, s', hs, he⟩ := he.exists_step
  rw [← step_of_begin h] at hs
  rcases he with ⟨u, rfl, hu⟩ | he
  · exact .finish hs hu
  · exact .on hs he

/-- Indents and dedents that are still to be handed over do not matter for the end of the text. -/
theorem Ends.drain {s : Scanner} (he : Ends s) (hs : s.lineStart = false) : Ends { s with pending := 0 } := by
  have hzero {s : Scanner} (hp : s.pending = 0) : { s with pending := 0 } = s := by rw [← hp]
  have hbegin {s s₁ : Scanner} {blank : Bool} (hs : s.lineStart = false) (hb : begin s = .ok (s₁, blank)) : s₁ = s :=
    (Prod.mk.inj (Except.ok.inj ((begin_inside hs).symm.trans hb))).1.symm
  induction he with
  | finish h ht =>
    obtain ⟨s₁, blank, hb, ⟨n, u, hu, hfin, -⟩ | ⟨hp, -⟩⟩ := step_cases h
    · exact absurd (Option.some.inj hu ▸ ht) hfin
    · rw [hzero (hbegin hs hb ▸ hp)]
      exact .finish h ht
  | on h he ih =>
    obtain ⟨s₁, blank, hb, ⟨n, u, -, -, -, rfl⟩ | ⟨hp, -⟩⟩ := step_cases h
    · rw [hbegin hs hb] at ih
      exact ih hs
    · rw [hzero (hbegin hs hb ▸ hp)]
      exact .on h he

/-- Before a row is begun, no indent or dedent is left to be handed over. -/
def Settled (s : Scanner) : Prop := s.lineStart = true → s.pending = 0

theorem step_settled {s s' : Scanner} {t : Option Token} (h : step s = .ok (t, s')) : Settled s' := by
  obtain ⟨s₁, blank, hb, ⟨n, u, -, -, -, rfl⟩ | ⟨hp, h⟩⟩ := step_cases h
  · exact fun h => absurd h (by simp [(begin_frame hb).2.1])
  · exact fun _ => (inLine_frame (Nat.lt_succ_self _) h).1.trans hp

/-- A scanner that comes to a fault of the text other than one in its layout. -/
inductive Faults : Scanner → Prop
  | fault {s : Scanner} {r : Reader} {stop : Stop} (h : step s = .error (r, stop))
      (hl : ∀ s : Scanner, (s.halt r stop).rejection.kind = .grammar) : Faults s
  | on {s s' : Scanner} {t : Option Token} (h : step s = .ok (t, s')) (ht : ∀ u, t = some u → u.lexeme ≠ .finish)
      (hf : Faults s') : Faults s

theorem Reads.faults {s s₁ : Scanner} {ts : List Token} (h : Reads s ts s₁) (hf : Faults s₁) : Faults s := by
  induction h with
  | here => exact hf
  | pass hs _ ih => exact .on hs (fun u hu => nomatch hu) (ih hf)
  | token hs ht _ ih => exact .on hs (fun u hu => Option.some.inj hu ▸ ht) (ih hf)

theorem Faults.not_ends {s : Scanner} (hf : Faults s) : ¬Ends s := by
  intro he
  induction hf with
  | fault h hl =>
    obtain ⟨t, s', hs, -⟩ := he.exists_step
    cases h.symm.trans hs
  | on h ht hf ih =>
    obtain ⟨t, s', hs, he⟩ := he.exists_step
    obtain ⟨rfl, rfl⟩ := Prod.mk.inj (Except.ok.inj (h.symm.trans hs))
    exact ih (he.resolve_left fun ⟨u, hu, hfin⟩ => ht u hu hfin)

/-- The kind of a report depends on the stop alone. -/
theorem halt_kind (s s' : Scanner) (r : Reader) (stop : Stop) :
    (s.halt r stop).rejection.kind = (s'.halt r stop).rejection.kind := by
  cases stop with
  | endOfText =>
    rw [halt, halt]
    cases s.brackets <;> cases s'.brackets <;> rfl
  | _ => rfl

/-- A scanner that reads tokens of these lexemes, and then the end of its text. -/
inductive Spells : Scanner → List Lexeme → Prop
  | finish {s s' : Scanner} {t : Token} (h : step s = .ok (some t, s')) (ht : t.lexeme = .finish) : Spells s []
  | pass {s s' : Scanner} {ls : List Lexeme} (h : step s = .ok (none, s')) (hr : Spells s' ls) : Spells s ls
  | token {s s' : Scanner} {t : Token} {ls : List Lexeme} (h : step s = .ok (some t, s')) (ht : t.lexeme ≠ .finish)
      (hr : Spells s' ls) : Spells s (t.lexeme :: ls)

theorem Reads.spells {s s₁ : Scanner} {ts : List Token} {ls : List Lexeme} (h : Reads s ts s₁) (hs : Spells s₁ ls) :
    Spells s (ts.map (·.lexeme) ++ ls) := by
  induction h with
  | here => exact hs
  | pass h _ ih => exact .pass h (ih hs)
  | token h ht _ ih => exact .token h ht (ih hs)

/-- What was read is the front of what there is to read. -/
theorem Reads.spells_of {s s₁ : Scanner} {ts : List Token} {ls : List Lexeme} (h : Reads s ts s₁) (hs : Spells s ls) :
    ∃ ls', ls = ts.map (·.lexeme) ++ ls' ∧ Spells s₁ ls' := by
  induction h generalizing ls with
  | here => exact ⟨ls, rfl, hs⟩
  | pass h _ ih =>
    cases hs with
    | finish h' => cases h.symm.trans h'
    | token h' => cases h.symm.trans h'
    | pass h' hr =>
      obtain ⟨-, rfl⟩ := Prod.mk.inj (Except.ok.inj (h.symm.trans h'))
      exact ih hr
  | token h ht _ ih =>
    cases hs with
    | finish h' ht' =>
      obtain ⟨hu, -⟩ := Prod.mk.inj (Except.ok.inj (h.symm.trans h'))
      exact absurd (Option.some.inj hu ▸ ht') ht
    | pass h' => cases h.symm.trans h'
    | token h' _ hr =>
      obtain ⟨hu, rfl⟩ := Prod.mk.inj (Except.ok.inj (h.symm.trans h'))
      obtain rfl := Option.some.inj hu
      obtain ⟨ls', rfl, hs'⟩ := ih hr
      exact ⟨ls', rfl, hs'⟩

theorem Spells.exists_step {s : Scanner} {ls : List Lexeme} (h : Spells s ls) : ∃ t s', step s = .ok (t, s') := by
  cases h with
  | finish h | pass h | token h => exact ⟨_, _, h⟩

theorem Spells.unique {s : Scanner} {ls ls' : List Lexeme} (h : Spells s ls) (h' : Spells s ls') : ls = ls' := by
  induction h generalizing ls' with
  | finish h ht =>
    cases h' with
    | finish => rfl
    | pass h' => cases h.symm.trans h'
    | token h' ht' =>
      obtain ⟨hu, -⟩ := Prod.mk.inj (Except.ok.inj (h.symm.trans h'))
      exact absurd (Option.some.inj hu ▸ ht) ht'
  | pass h _ ih =>
    obtain ⟨ls₁, rfl, hs⟩ := (Reads.pass h (.here _)).spells_of h'
    exact ih hs
  | token h ht _ ih =>
    obtain ⟨ls₁, rfl, hs⟩ := (Reads.token h ht (.here _)).spells_of h'
    exact congrArg _ (ih hs)

theorem Spells.ends {s : Scanner} {ls : List Lexeme} (h : Spells s ls) : Ends s := by
  induction h with
  | finish h ht => exact .finish h ht
  | pass h _ ih | token h _ _ ih => exact .on h ih

theorem Spells.of_begin {s s₁ : Scanner} {ls : List Lexeme} (h : begin s = .ok (s₁, false)) :
    Spells s₁ ls ↔ Spells s ls := by
  have hstep := step_of_begin h
  constructor
  · intro hs
    cases hs with
    | finish h' ht => exact .finish (hstep ▸ h') ht
    | pass h' hr => exact .pass (hstep ▸ h') hr
    | token h' ht hr => exact .token (hstep ▸ h') ht hr
  · intro hs
    cases hs with
    | finish h' ht => exact .finish (hstep.trans h') ht
    | pass h' hr => exact .pass (hstep.trans h') hr
    | token h' ht hr => exact .token (hstep.trans h') ht hr

end Runs

end Scanner

namespace TokenStream

open Scanner

/-- The lexemes of a text. -/
def lexemes (text : List Char) : List Lexeme := (ofText text).tokens.toList.map (·.lexeme)

/-- The lexemes of a text whose tokens come to an end. -/
theorem spells_of_finish {text : List Char} {t : Token} (ht : t ∈ (ofText text).tokens) (hl : t.lexeme = .finish) :
    ∃ ls, Spells (Scanner.ofText (canonical text)) ls ∧ lexemes text = ls ++ [.finish] ∧
      ls.length < 2 * (canonical text).length + indentLimit + 2 := by
  obtain ⟨ts, s₁, ts', hr, htokens, ho⟩ :=
    collect_reads (2 * (canonical text).length + indentLimit + 2) (Scanner.ofText (canonical text)) #[]
  have htokens : (ofText text).tokens = ts'.toArray := by
    rw [ofText, htokens]
    exact Array.empty_append
  have ht' : t ∈ ts' := by
    rw [htokens] at ht
    simpa using ht
  generalize (TokenStream.collect _ _ _).halt.map (·.1.rejection) = halt at ho
  cases ho with
  | @finished u s' hs hfin hf =>
    refine ⟨ts.map (·.lexeme), ?_, ?_, by simpa using hf⟩
    · simpa using hr.spells (.finish hs hfin)
    · rw [lexemes, htokens]
      simp [hfin]
  | halted | exhausted => exact absurd hl (hr.lexeme_ne t ht')

/-- The tokens of a text, by what its scanner reads. -/
theorem lexemes_of_spells {text : List Char} {ls : List Lexeme} (hs : Spells (Scanner.ofText (canonical text)) ls)
    (hf : ls.length < 2 * (canonical text).length + indentLimit + 2) :
    lexemes text = ls ++ [.finish] ∧ (ofText text).halt = none := by
  obtain ⟨ts, s₁, ts', hr, htokens, ho⟩ :=
    collect_reads (2 * (canonical text).length + indentLimit + 2) (Scanner.ofText (canonical text)) #[]
  obtain ⟨ls', rfl, hs'⟩ := hr.spells_of hs
  generalize hhalt : (TokenStream.collect _ _ _).halt.map (·.1.rejection) = halt at ho
  cases ho with
  | finished h ht =>
    obtain rfl : ls' = [] := by
      cases hs' with
      | finish => rfl
      | pass h' => cases h.symm.trans h'
      | token h' ht' =>
        obtain ⟨hu, -⟩ := Prod.mk.inj (Except.ok.inj (h.symm.trans h'))
        exact absurd (Option.some.inj hu ▸ ht) ht'
    refine ⟨?_, Option.map_eq_none_iff.mp hhalt⟩
    have htokens : (ofText text).tokens = #[] ++ (ts ++ [_]).toArray := htokens
    rw [lexemes, htokens]
    simp [ht]
  | halted s₂ h =>
    cases hs' with
    | finish h' | pass h' | token h' => cases h.symm.trans h'
  | exhausted hf' =>
    rw [List.length_append, List.length_map] at hf
    omega

/-- A text whose tokens end early for another reason than its layout comes to a fault. -/
theorem faults_of_halt {text : List Char} {h : Halt × Option OpenBracket} (hh : (ofText text).halt = some h)
    (hk : h.1.rejection.kind = .grammar) : Faults (Scanner.ofText (canonical text)) := by
  obtain ⟨ts, s₁, ts', hr, -, ho⟩ :=
    collect_reads (2 * (canonical text).length + indentLimit + 2) (Scanner.ofText (canonical text)) #[]
  have hhalt : (collect (2 * (canonical text).length + indentLimit + 2) (Scanner.ofText (canonical text)) #[]).halt =
      some h := hh
  rw [hhalt, Option.map_some] at ho
  generalize hrej : some h.1.rejection = rejection at ho
  cases ho with
  | finished => cases hrej
  | exhausted => cases hrej
  | halted s₂ hs =>
    refine hr.faults (.fault hs fun s => ?_)
    rw [halt_kind s s₂, ← Option.some.inj hrej, hk]

end TokenStream

end Evalbox.Lang
