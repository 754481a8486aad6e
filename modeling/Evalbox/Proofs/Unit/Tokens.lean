import Evalbox.Proofs.Lang.Abreast
import Evalbox.Proofs.Lang.Reading
import Evalbox.Proofs.Unit.Padding

/-!
# Tokens of indented texts

A scanner trails another if it reads the padded text and has the same brackets open. A token of the text is a token of
the padded text: numbers, words and symbols with the same spelling, literals with blanks behind their display breaks.
What is no token in the one text is none in the other.
-/

namespace Evalbox

open Text Lang Scanner

/-- What a lexeme becomes in a padded text. -/
def paddedLexeme : Lexeme → Lexeme
  | .text t => .text (spread bodyIndent t)
  | l => l

/-- Every row of the text is ended. -/
def Ended (text : List Char) : Prop := ∀ c, text.getLast? = some c → c = '\n'

theorem Ended.suffix {a b : List Char} (h : Ended (a ++ b)) : Ended b := fun c hc =>
  h c (by rw [List.getLast?_append, hc]; rfl)

theorem Ended.getLast? {a : List Char} (h : Ended a) (ha : a ≠ []) : a.getLast? = some '\n' := by
  have hl := List.getLast?_eq_some_getLast ha
  rw [hl, h _ hl]

theorem Ended.mem {a : List Char} (h : Ended a) (ha : a ≠ []) : '\n' ∈ a := List.mem_of_getLast? (h.getLast? ha)

theorem Ended.tail_ne_nil {c : Char} {rest : List Char} (h : Ended (c :: rest)) (hc : c ≠ '\n') : rest ≠ [] := by
  rintro rfl
  exact hc (h c rfl)

/-- The end of a text is not read inside a display line. -/
theorem Ended.behind {lit a : List Char} (h : Ended (lit ++ a)) (hl : lit.getLast? ≠ some '\n')
    (hne : lit ++ a ≠ []) : a ≠ [] := by
  rintro rfl
  rw [List.append_nil] at h hne
  cases hlast : lit.getLast? with
  | none => exact hne (List.getLast?_eq_none_iff.mp hlast)
  | some c => exact hl (h c hlast ▸ hlast)

/-- The text `a` of ended rows, and the same text padded. `strict` excludes texts that end in a backslash in front of a
row of its own. -/
structure Beside (tail : List Char) (strict : Prop) (a b : List Char) : Prop where
  text : Padded tail a b
  tail_eq : tail = [] ∨ tail = ['\n']
  ended : Ended a
  sound : strict → tail ≠ [] → ¬['\\', '\n'] <:+ a

namespace Beside

variable {tail : List Char} {strict : Prop} {a b : List Char} {c : Char}

theorem behind (lit : List Char) {p : List Char} (h : Beside tail strict (lit ++ a) b) (hp : Padded tail a p) :
    Beside tail strict a p :=
  ⟨hp, h.tail_eq, h.ended.suffix, fun hs ht hsuffix => h.sound hs ht (hsuffix.trans (List.suffix_append lit a))⟩

theorem uncons (h : Beside tail strict (c :: a) b) : ∃ k p, b = c :: (List.replicate k ' ' ++ p) ∧
    Beside tail strict a p ∧ (isDisplayBreak c = false → k = 0) ∧ (isDisplayBreak c = true → MarginOf a k) := by
  obtain ⟨k, p, rfl, hp, hk, hm⟩ := h.text.uncons
  exact ⟨k, p, rfl, h.behind [c] hp, hk, hm⟩

theorem abreast (h : Beside tail strict a b) (hne : a ≠ []) : Abreast a b := by
  have habreast {a b : List Char} (hp : Padded tail a b) (hn : '\n' ∈ a) : Abreast a b := by
    induction hp with
    | nil => cases hn
    | margin hc => exact .here (Bool.or_eq_true_iff.mpr (.inl hc))
    | last hc => exact .here (Bool.or_eq_true_iff.mpr (.inl hc))
    | keep hc _ ih =>
      refine .keep _ (ih ((List.mem_cons.mp hn).resolve_left fun hcn => ?_))
      rw [← hcn] at hc
      cases hc
  exact habreast h.text (h.ended.mem hne)

end Beside

/-- Both results are answers that are related, or both are errors. What is not strict may err alone on the left. -/
inductive Agree {α : Type} (strict : Prop) (R : α → α → Prop) :
    Except (Reader × Stop) α → Except (Reader × Stop) α → Prop
  | ok {x y : α} (h : R x y) : Agree strict R (.ok x) (.ok y)
  | error (e e' : Reader × Stop) : Agree strict R (.error e) (.error e')
  | lost (h : ¬strict) (e : Reader × Stop) (y : α) : Agree strict R (.error e) (.ok y)

theorem Agree.of_not_strict {α : Type} {strict : Prop} {R : α → α → Prop} (h : ¬strict) (e : Reader × Stop)
    (y : Except (Reader × Stop) α) : Agree strict R (.error e) y := by
  cases y with
  | error e' => exact .error e e'
  | ok y => exact .lost h e y

theorem Agree.imp {α : Type} {strict : Prop} {R S : α → α → Prop} {x y : Except (Reader × Stop) α}
    (h : Agree strict R x y) (hRS : ∀ a b, R a b → S a b) : Agree strict S x y := by
  cases h with
  | ok h => exact .ok (hRS _ _ h)
  | error e e' => exact .error e e'
  | lost h e y => exact .lost h e y

theorem Agree.map {α β : Type} {strict : Prop} {R : α → α → Prop} {S : β → β → Prop}
    {x y : Except (Reader × Stop) α} {f g : α → β} (h : Agree strict R x y) (hf : ∀ a b, R a b → S (f a) (g b)) :
    Agree strict S (x.map f) (y.map g) := by
  cases h with
  | ok h => exact .ok (hf _ _ h)
  | error e e' => exact .error e e'
  | lost h e y => exact .lost h e _

section Literals

variable {tail a b : List Char} {quote : Char} {size run n m : Nat}

/-- A literal that is open in the text is open in the padded text. -/
theorem stringEnd_fails (hq : IsQuote quote) (ht : tail = [] ∨ tail = ['\n']) (hp : Padded tail a b)
    (h : stringEnd quote size run a n = .error m) (n' : Nat) : ∃ m', stringEnd quote size run b n' = .error m' := by
  have hquote : '\\' ≠ quote := by rcases hq with rfl | rfl <;> decide
  have hfeed : '\n' ≠ quote := by rcases hq with rfl | rfl <;> decide
  have hnil (run n : Nat) : stringEnd quote size run [] n = .error n := by rw [stringEnd.eq_def]
  -- the induction follows the scan of the literal in the text
  induction run, a, n using stringEnd.induct quote size generalizing b n' with
  | case1 run n =>
    rw [hp.eq_tail]
    rcases ht with rfl | rfl
    · exact ⟨n', hnil run n'⟩
    · by_cases hs : size = 1
      · exact ⟨_, stringEnd_break ⟨hs, rfl⟩ []⟩
      · rw [stringEnd_other (fun h => hs h.1) hfeed (by decide)]
        exact ⟨_, hnil 0 _⟩
  | case2 run c rest n hn =>
    obtain ⟨k, p, rfl, -⟩ := hp.uncons
    exact ⟨_, stringEnd_break hn _⟩
  | case3 run rest n hs hn =>
    rw [stringEnd_quote hn, if_pos hs] at h
    cases h
  | case4 run rest n hs hn ih =>
    rw [stringEnd_quote hn, if_neg hs] at h
    obtain ⟨p, rfl, hp'⟩ := Padded.uncons_keep hq.not_break hp
    rw [stringEnd_quote hn, if_neg hs]
    exact ih hp' h _
  | case5 run n hn hb =>
    obtain ⟨p, rfl, hp'⟩ := Padded.uncons_keep rfl hp
    rw [hp'.eq_tail]
    rcases ht with rfl | rfl
    · exact ⟨_, stringEnd_lone hquote⟩
    · rw [stringEnd_escape hquote]
      exact ⟨_, hnil 0 _⟩
  | case6 run n c rest hn hb ih =>
    rw [stringEnd_escape hb] at h
    obtain ⟨p, rfl, hp'⟩ := Padded.uncons_keep rfl hp
    obtain ⟨k, p, rfl, hp'', -⟩ := hp'.uncons
    rw [stringEnd_escape hb, stringEnd_blanks hq.ne_blank]
    exact ih hp'' h _
  | case7 run c rest n hn hc hb ih =>
    rw [stringEnd_other hn hc hb] at h
    obtain ⟨k, p, rfl, hp', -⟩ := hp.uncons
    rw [stringEnd_other hn hc hb, stringEnd_blanks hq.ne_blank]
    exact ih hp' h _

/-- A literal of the text, from behind its opening quotes. -/
theorem stringEnd_padded (size : Nat) (hq : IsQuote quote) (ht : tail = [] ∨ tail = ['\n']) (hp : Padded tail a b)
    (n : Nat) :
    (∃ m m', stringEnd quote size 0 a n = .error m ∧ stringEnd quote size 0 b n = .error m') ∨
      ∃ lit a' b', a = lit ++ a' ∧ b = spread bodyIndent lit ++ b' ∧ Padded tail a' b' ∧ lit.getLast? = some quote ∧
        stringEnd quote size 0 a n = .ok (n + lit.length) ∧
        stringEnd quote size 0 b n = .ok (n + (spread bodyIndent lit).length) := by
  cases h : stringEnd quote size 0 a n with
  | error m =>
    obtain ⟨m', h'⟩ := stringEnd_fails hq ht hp h n
    exact .inl ⟨m, m', rfl, h'⟩
  | ok m =>
    obtain ⟨lit, a', rfl, rfl, hl⟩ := stringEnd_closed h
    obtain ⟨b', rfl, hp'⟩ := Padded.split hl hq.not_break hp
    exact .inr ⟨lit, a', b', rfl, rfl, hp', hl, rfl, stringEnd_spread hq.ne_blank hq.not_break h b' n⟩

/-- A quote in front of the padded text stands in front of the text. -/
theorem Padded.of_quote (hq : IsQuote quote) (ht : tail = [] ∨ tail = ['\n']) (hp : Padded tail a (quote :: b)) :
    ∃ a', a = quote :: a' ∧ Padded tail a' b := by
  cases a with
  | nil =>
    have hquote : '\n' ≠ quote := by rcases hq with rfl | rfl <;> decide
    rcases ht with rfl | rfl
    · cases hp
    · exact absurd (List.cons.inj hp.eq_tail).1 hquote.symm
  | cons c a =>
    obtain ⟨k, p, heq, hp', -⟩ := hp.uncons
    obtain ⟨rfl, -⟩ := List.cons.inj heq
    obtain ⟨p, heq, hp'⟩ := hp.uncons_keep hq.not_break
    obtain ⟨-, rfl⟩ := List.cons.inj heq
    exact ⟨a, rfl, hp'⟩

/-- A literal of the text with its letters and quotes. -/
theorem stringLength_padded (hq : IsQuote quote) (ht : tail = [] ∨ tail = ['\n']) {letters rest : List Char}
    (hl : Flat letters) (hp : Padded tail (letters ++ quote :: rest) b) :
    (∃ e e', stringLength letters.length (letters ++ quote :: rest) = .error e ∧
      stringLength letters.length b = .error e') ∨
      ∃ lit a' b', letters ++ quote :: rest = lit ++ a' ∧ b = spread bodyIndent lit ++ b' ∧ Padded tail a' b' ∧
        lit.getLast? = some quote ∧ stringLength letters.length (letters ++ quote :: rest) = .ok lit.length ∧
        stringLength letters.length b = .ok (spread bodyIndent lit).length := by
  obtain ⟨_, rfl, hp₁⟩ := hp.front hl
  obtain ⟨rest', rfl, hp₂⟩ := hp₁.uncons_keep hq.not_break
  -- `opening` is what stands in front of the body of the literal, `size` how many quotes close it
  have hclose {opening : List Char} (size : Nat) (ho : Flat opening) {body body' : List Char}
      (hb : Padded tail body body') (h : stringLength letters.length (letters ++ quote :: rest) =
        (stringEnd quote size 0 body opening.length).mapError (size, ·))
      (h' : stringLength letters.length (letters ++ quote :: rest') =
        (stringEnd quote size 0 body' opening.length).mapError (size, ·))
      (htext : letters ++ quote :: rest = opening ++ body) (htext' : letters ++ quote :: rest' = opening ++ body') :
      (∃ e e', stringLength letters.length (letters ++ quote :: rest) = .error e ∧
        stringLength letters.length (letters ++ quote :: rest') = .error e') ∨
        ∃ lit a' b', letters ++ quote :: rest = lit ++ a' ∧
          letters ++ quote :: rest' = spread bodyIndent lit ++ b' ∧ Padded tail a' b' ∧ lit.getLast? = some quote ∧
          stringLength letters.length (letters ++ quote :: rest) = .ok lit.length ∧
          stringLength letters.length (letters ++ quote :: rest') = .ok (spread bodyIndent lit).length := by
    rcases stringEnd_padded size hq ht hb opening.length with
      ⟨m, m', he, he'⟩ | ⟨lit, a', b', rfl, rfl, hab, hlast, he, he'⟩
    · exact .inl ⟨_, _, h.trans (congrArg _ he), h'.trans (congrArg _ he')⟩
    · have hspread : spread bodyIndent (opening ++ lit) = opening ++ spread bodyIndent lit := spread_front _ ho lit
      refine .inr ⟨opening ++ lit, a', b', ?_, ?_, hab, by rw [List.getLast?_append, hlast]; rfl, ?_, ?_⟩
      · rw [htext, List.append_assoc]
      · rw [htext', hspread, List.append_assoc]
      · rw [h, he, List.length_append]
        rfl
      · rw [h', he', hspread, List.length_append]
        rfl
  have hone : Flat (letters ++ [quote]) :=
    List.forall_mem_append.mpr ⟨hl, List.forall_mem_singleton.mpr hq.not_break⟩
  by_cases hq₂ : rest.take 2 = [quote, quote]
  · obtain ⟨body, rfl⟩ : ∃ body, rest = quote :: quote :: body :=
      ⟨rest.drop 2, by rw [← List.take_append_drop 2 rest, hq₂]; rfl⟩
    obtain ⟨_, rfl, hp₃⟩ := hp₂.uncons_keep hq.not_break
    obtain ⟨body', rfl, hp₄⟩ := hp₃.uncons_keep hq.not_break
    have hthree : Flat (letters ++ [quote, quote, quote]) :=
      List.forall_mem_append.mpr ⟨hl, by simpa [Flat] using hq.not_break⟩
    exact hclose 3 hthree hp₄ (stringLength_long ..) (stringLength_long ..) (by simp) (by simp)
  · have hq₂' : rest'.take 2 ≠ [quote, quote] := by
      intro h
      obtain ⟨body', rfl⟩ : ∃ body', rest' = quote :: quote :: body' :=
        ⟨rest'.drop 2, by rw [← List.take_append_drop 2 rest', h]; rfl⟩
      obtain ⟨_, rfl, hp₃⟩ := hp₂.of_quote hq ht
      obtain ⟨_, rfl, -⟩ := hp₃.of_quote hq ht
      exact hq₂ rfl
    exact hclose 1 hone hp₂ (stringLength_short hq _ hq₂) (stringLength_short hq _ hq₂') (by simp) (by simp)

end Literals

/-- The scanner `w` reads the padded text of what `s` reads, and has the same brackets open. -/
structure Trails (tail : List Char) (strict : Prop) (s w : Scanner) : Prop where
  texts : ∃ k p, w.reader.rest = List.replicate k ' ' ++ p ∧ Beside tail strict s.reader.rest p ∧
    (s.lineStart = true → MarginOf s.reader.rest k)
  start : w.lineStart = s.lineStart
  brackets : w.brackets.map (·.bracket) = s.brackets.map (·.bracket)
  /-- Inside a line at least its end is left. -/
  inside : s.lineStart = false → s.reader.rest ≠ []

/-- The tokens are the same but for literals, and the scanners behind them trail each other. -/
def ReadAlike (tail : List Char) (strict : Prop) (x y : Token × Scanner) : Prop :=
  y.1.lexeme = paddedLexeme x.1.lexeme ∧ Trails tail strict x.2 y.2

/-- The same for steps that may pass the end of a row. -/
def PassAlike (tail : List Char) (strict : Prop) (x y : Option Token × Scanner) : Prop :=
  y.1.map (·.lexeme) = x.1.map (paddedLexeme ·.lexeme) ∧ Trails tail strict x.2 y.2

/-- What a symbol does to the brackets. -/
theorem bracket_agree {strict : Prop} {s w : Scanner} {r r' : Reader}
    (h : w.brackets.map (·.bracket) = s.brackets.map (·.bracket)) (sym : Sym) : Agree strict
    (fun s₁ w₁ => s₁.lineStart = s.lineStart ∧ w₁.lineStart = w.lineStart ∧
      w₁.brackets.map (·.bracket) = s₁.brackets.map (·.bracket)) (s.bracket r sym) (w.bracket r' sym) := by
  have hlen : w.brackets.length = s.brackets.length := by
    have hlen := congrArg List.length h
    rwa [List.length_map, List.length_map] at hlen
  have hopened (c : Char) : Agree strict
      (fun s₁ w₁ => s₁.lineStart = s.lineStart ∧ w₁.lineStart = w.lineStart ∧
        w₁.brackets.map (·.bracket) = s₁.brackets.map (·.bracket))
      (if s.brackets.length ≥ bracketLimit then .error (fault (r.skipMany 1) "too many nested parentheses")
        else .ok { s with brackets := ⟨c, r.place⟩ :: s.brackets })
      (if w.brackets.length ≥ bracketLimit then .error (fault (r'.skipMany 1) "too many nested parentheses")
        else .ok { w with brackets := ⟨c, r'.place⟩ :: w.brackets }) := by
    rw [hlen]
    split
    · exact .error _ _
    · exact .ok ⟨rfl, rfl, congrArg (c :: ·) h⟩
  rw [Scanner.bracket.eq_def, Scanner.bracket.eq_def]
  cases sym
  case lpar => exact hopened '('
  case lsqb => exact hopened '['
  case lbrace => exact hopened '\x7b'
  case rpar | rsqb | rbrace =>
    have hb := h
    cases hs : s.brackets with
    | nil =>
      cases hw : w.brackets with
      | nil => exact .error _ _
      | cons => rw [hs, hw] at hb; cases hb
    | cons b bs =>
      cases hw : w.brackets with
      | nil => rw [hs, hw] at hb; cases hb
      | cons b' bs' =>
        rw [hs, hw] at hb
        obtain ⟨hc, hbs⟩ := List.cons.inj hb
        simp only [hc]
        split
        · exact .ok ⟨rfl, rfl, hbs⟩
        · exact .error _ _
  all_goals exact .ok ⟨rfl, rfl, h⟩

/-- Both scanners stand inside a line, and their readers at the same place of the text. -/
structure Inside (tail : List Char) (strict : Prop) (s w : Scanner) (r r' : Reader) : Prop where
  texts : Beside tail strict r.rest r'.rest
  inside : s.lineStart = false
  start : w.lineStart = s.lineStart
  brackets : w.brackets.map (·.bracket) = s.brackets.map (·.bracket)
  rest : r.rest ≠ []

namespace Inside

variable {tail : List Char} {strict : Prop} {s w : Scanner} {r r' : Reader}

/-- Both scanners read on in front of `b`, which may stand behind blanks. -/
theorem trails (h : Inside tail strict s w r r') {r₁ r₁' : Reader} {k : Nat} {b : List Char}
    (hr' : r₁'.rest = List.replicate k ' ' ++ b) (hb : Beside tail strict r₁.rest b) (hne : r₁.rest ≠ []) :
    Trails tail strict { s with reader := r₁ } { w with reader := r₁' } where
  texts := ⟨k, b, hr', hb, fun hs => absurd hs (by simp [h.inside])⟩
  start := h.start
  brackets := h.brackets
  inside _ := hne

/-- A token of the text, and what it is in the padded text. -/
theorem take (h : Inside tail strict s w r r') {lit lit' a b : List Char} (ha : r.rest = lit ++ a)
    (hb : r'.rest = lit' ++ b) (hp : Padded tail a b) (hl : lit.getLast? ≠ some '\n') (lexeme : Lexeme)
    (warning warning' : Option String) :
    ReadAlike tail strict (s.take r lexeme lit.length warning)
      (w.take r' (paddedLexeme lexeme) lit'.length warning') := by
  have hra : (r.skipMany lit.length).rest = a := by rw [Reader.rest_skipMany, ha, List.drop_left]
  have hrb : (r'.skipMany lit'.length).rest = List.replicate 0 ' ' ++ b := by
    rw [Reader.rest_skipMany, hb, List.drop_left]
    rfl
  have hne : a ≠ [] := (ha ▸ h.texts.ended).behind hl (ha ▸ h.rest)
  exact ⟨rfl, h.trails hrb (hra ▸ (ha ▸ h.texts).behind lit hp) (hra ▸ hne)⟩

/-- A token that is spelled alike in both texts. -/
theorem take_flat (h : Inside tail strict s w r r') {lit a b : List Char} (hl : Flat lit) (ha : r.rest = lit ++ a)
    (hb : r'.rest = lit ++ b) (lexeme : Lexeme) (warning warning' : Option String) :
    ReadAlike tail strict (s.take r lexeme lit.length warning)
      (w.take r' (paddedLexeme lexeme) lit.length warning') := by
  have hp : Padded tail (lit ++ a) r'.rest := ha ▸ h.texts.text
  obtain ⟨b', hb', hp'⟩ := hp.front hl
  obtain rfl : b' = b := List.append_cancel_left (hb'.symm.trans hb)
  exact h.take ha hb hp' hl.getLast?_ne lexeme warning warning'

theorem string (h : Inside tail strict s w r r') (letters : List Char) {rest : List Char} {quote : Char}
    (hq : IsQuote quote) (hl : Flat letters) (hr : r.rest = letters ++ quote :: rest) :
    Agree strict (ReadAlike tail strict) (s.string r letters.length) (w.string r' letters.length) := by
  have hp : Padded tail (letters ++ quote :: rest) r'.rest := hr ▸ h.texts.text
  rw [Scanner.string, Scanner.string]
  rcases stringLength_padded hq h.texts.tail_eq hl hp with ⟨e, e', he, he'⟩ | ⟨lit, a, b, ha, hb, hab, hlast, hn, hn'⟩
  · rw [hr, he, he']
    exact .error _ _
  · have hlit : r.rest.take lit.length = lit := by rw [hr, ha, List.take_left]
    have hlit' : r'.rest.take (spread bodyIndent lit).length = spread bodyIndent lit := by rw [hb, List.take_left]
    rw [← hr] at hn ha
    rw [hn, hn']
    dsimp only
    rw [hlit, hlit']
    have hfeed : lit.getLast? ≠ some '\n' := by
      rw [hlast]
      exact fun h => absurd (Option.some.inj h) (by rcases hq with rfl | rfl <;> decide)
    exact .ok (h.take ha hb hab hfeed (.text lit) none none)

theorem number (h : Inside tail strict s w r r') :
    Agree strict (ReadAlike tail strict) (s.number r) (w.number r') := by
  have htwin := Numeral.scan_twin (h.texts.abreast h.rest)
  rw [Scanner.number, Scanner.number, ← htwin.same]
  cases hn : Numeral.scan r.rest with
  | found n warning =>
    obtain ⟨lit, a, b, ha, hb, hlen, hl⟩ := htwin.front n warning hn
    obtain rfl : n = lit.length := by omega
    dsimp only
    have hlit : r.rest.take lit.length = lit := by rw [ha, List.take_left]
    have hlit' : r'.rest.take lit.length = lit := by rw [hb, List.take_left]
    rw [hlit, hlit']
    exact .ok (h.take_flat hl.flat ha hb (.number lit) warning warning)
  | malformed => exact .error _ _
  | leadingZeros => exact .error _ _

theorem quoteAhead_eq {a b : List Char} (h : Abreast a b) : quoteAhead a = quoteAhead b := by
  obtain ⟨c, a, b, rfl, rfl, -⟩ := h.exists_cons
  rfl

theorem exists_of_quoteAhead {text : List Char} (h : quoteAhead text = true) :
    ∃ q rest, text = q :: rest ∧ IsQuote q := by
  cases text with
  | nil => cases h
  | cons q rest => exact ⟨q, rest, rfl, by simpa [quoteAhead, IsQuote] using h⟩

/-- A word with a display break is refused. -/
theorem word_broken (s : Scanner) (r : Reader) (hb : ¬Flat (r.rest.takeWhile Numeral.continuesWord)) :
    ∃ e, s.word r = .error e := by
  rw [word_eq s r rfl, not_stringLetters hb, Bool.and_false, if_neg Bool.false_ne_true]
  cases h : badIdentifier? (r.rest.takeWhile Numeral.continuesWord) with
  | none => exact absurd h (badIdentifier?_of_not_flat hb)
  | some x => exact ⟨_, rfl⟩

theorem word (h : Inside tail strict s w r r') :
    Agree strict (ReadAlike tail strict) (s.word r) (w.word r') := by
  rcases (h.texts.abreast h.rest).word with ⟨letters, a, b, ha, hb, hl, hab, hwa, hwb⟩ | ⟨hba, hbb⟩
  · have hdrop : r.rest.drop letters.length = a := by rw [ha, List.drop_left]
    have hdrop' : r'.rest.drop letters.length = b := by rw [hb, List.drop_left]
    rw [word_eq s r hwa, word_eq w r' hwb, hdrop, hdrop', ← quoteAhead_eq hab]
    split
    case isTrue hq =>
      obtain ⟨q, rest, rfl, hquote⟩ := exists_of_quoteAhead (Bool.and_eq_true_iff.mp hq).1
      exact h.string letters hquote hl.flat ha
    case isFalse =>
      cases badIdentifier? letters with
      | some x => exact .error _ _
      | none =>
        dsimp only
        cases Keyword.ofText? (String.ofList letters) with
        | some k => exact .ok (h.take_flat hl.flat ha hb (.word k) none none)
        | none => exact .ok (h.take_flat hl.flat ha hb (.name (String.ofList letters)) none none)
  · obtain ⟨e, he⟩ := word_broken s r hba
    obtain ⟨e', he'⟩ := word_broken w r' hbb
    rw [he, he']
    exact .error _ _

/-- A symbol, or a character that no token begins with. -/
theorem symbolOrStray (h : Inside tail strict s w r r') {c : Char} {rest rest' : List Char} (hr : r.rest = c :: rest)
    (hr' : r'.rest = c :: rest') :
    Agree strict (PassAlike tail strict) (s.symbolOrStray r c) (w.symbolOrStray r' c) := by
  obtain ⟨hsame, hfront⟩ := Sym.longest?_twin (h.texts.abreast h.rest)
  rw [Scanner.symbolOrStray, Scanner.symbolOrStray, ← hsame]
  cases hs : Sym.longest? r.rest with
  | some x =>
    obtain ⟨sym, n⟩ := x
    obtain ⟨lit, a, b, ha, hb, rfl, hl⟩ := hfront sym n hs
    refine (bracket_agree h.brackets sym).map fun s₁ w₁ h₁ => ?_
    obtain ⟨hs₁, hw₁, hbrackets⟩ := h₁
    have h₁ : Inside tail strict s₁ w₁ r r' :=
      ⟨h.texts, hs₁.trans h.inside, hw₁.trans (h.start.trans hs₁.symm), hbrackets, h.rest⟩
    have hread := h₁.take_flat hl ha hb (.symbol sym) none none
    exact ⟨congrArg some hread.1, hread.2⟩
  | none =>
    dsimp only
    split
    case isTrue hc =>
      have hflat : Flat [c] := List.forall_mem_singleton.mpr (not_break isPrintable (by decide +kernel) hc)
      have hread := h.take_flat hflat hr hr' .stray none none
      exact .ok ⟨congrArg some hread.1, hread.2⟩
    case isFalse => exact .error _ _

end Inside

end Evalbox
