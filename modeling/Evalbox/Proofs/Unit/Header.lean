import Evalbox.Proofs.Lang.Abreast
import Evalbox.Proofs.Lang.Reading
import Evalbox.Proofs.Unit.Tokens
import Evalbox.Text.Identifier

/-!
# The header of a unit as the scanner reads it

What the next step of a scanner is depends on the text that is left, the open levels and the open brackets (`Stands`).
From this the tokens of a header are read off for every name of a unit (`reads_header`).
-/

namespace Evalbox.Lang.Scanner

open Text

/-- All that the next step of a scanner depends on. -/
structure Stands (s : Scanner) (lineStart : Bool) (pending : Int) (levels : List (Nat × Nat))
    (brackets rest : List Char) : Prop where
  lineStart : s.lineStart = lineStart
  pending : s.pending = pending
  levels : s.levels = levels
  brackets : s.brackets.map (·.bracket) = brackets
  rest : s.reader.rest = rest

section Steps

variable {s : Scanner} {levels : List (Nat × Nat)} {brackets rest : List Char} {pending : Int}

theorem Stands.isEmpty_brackets {lineStart : Bool} (h : Stands s lineStart pending levels [] rest) :
    s.brackets.isEmpty = true := by
  have hb := congrArg List.isEmpty h.brackets
  rwa [List.isEmpty_map] at hb

theorem step_inside (hs : s.lineStart = false) (hp : s.pending = 0) :
    step s = inLine (s.reader.rest.length + 1) s false := by
  rw [step, begin_inside hs]
  dsimp only
  rw [emit, if_neg (by omega), if_neg (by omega)]

/-- Blanks inside a line are passed. -/
theorem Stands.blanks {k : Nat} (h : Stands s false 0 levels brackets (List.replicate k ' ' ++ rest)) :
    ∃ s', Stands s' false 0 levels brackets rest ∧ step s = step s' := by
  induction k generalizing s with
  | zero => exact ⟨s, h, rfl⟩
  | succ k ih =>
    obtain ⟨r, hr, heq⟩ := inLine_blank s.reader.rest.length false h.rest (.inl rfl)
    have hs' : Stands { s with reader := r } false 0 levels brackets (List.replicate k ' ' ++ rest) :=
      ⟨h.lineStart, h.pending, h.levels, h.brackets, hr⟩
    obtain ⟨s', hs'', hstep⟩ := ih hs'
    have hlen : s.reader.rest.length = r.rest.length + 1 := by rw [h.rest, hr]; rfl
    refine ⟨s', hs'', ?_⟩
    rw [← hstep, step_inside h.lineStart h.pending, heq, hlen, step_inside hs'.lineStart hs'.pending]

theorem startsWord_of_identifier {c : Char} (hc : isIdentifierStart c = true) :
    (Numeral.continuesWord c && !c.isDigit) = true := by
  have hascii : ∀ n < 128, isIdentifierStart (Char.ofNat n) = true →
      (Numeral.continuesWord (Char.ofNat n) && !(Char.ofNat n).isDigit) = true := by decide +kernel
  by_cases h : c.toNat < 128
  · have h' := hascii c.toNat h
    rw [Char.ofNat_toNat] at h'
    exact h' hc
  · have hdigit : c.isDigit = false := by
      simp only [Char.isDigit, Bool.and_eq_false_iff, decide_eq_false_iff_not, UInt32.le_iff_toNat_le]
      right
      exact fun hle => h (Nat.lt_of_le_of_lt hle (by decide))
    rw [hdigit, Numeral.continuesWord, decide_eq_true (Nat.le_of_not_lt h), Bool.or_true]
    rfl

theorem continuesWord_of_identifier {c : Char} (hc : isIdentifierContinue c = true) :
    Numeral.continuesWord c = true := by
  rw [isIdentifierContinue] at hc
  split at hc
  case isTrue => rw [Numeral.continuesWord, hc, Bool.true_or]
  case isFalse h => rw [Numeral.continuesWord, decide_eq_true (Nat.le_of_not_lt h), Bool.or_true]

/-- What a word is: a reserved word or a name. -/
def wordLexeme (letters : List Char) : Lexeme :=
  match Keyword.ofText? (String.ofList letters) with
  | some k => .word k
  | none => .name (String.ofList letters)

theorem wordLexeme_ne_finish (letters : List Char) : wordLexeme letters ≠ .finish := by
  rw [wordLexeme]
  split <;> exact fun h => nomatch h

/-- An identifier in front of something that does not go on with it. -/
theorem Stands.word {letters : List Char} (h : Stands s false 0 levels brackets (letters ++ rest))
    (hl : isIdentifier letters = true)
    (hrest : ∀ c ∈ rest.head?, Numeral.continuesWord c = false ∧ c ≠ '\'' ∧ c ≠ '"') :
    ∃ t s', step s = .ok (some t, s') ∧ t.lexeme = wordLexeme letters ∧ Stands s' false 0 levels brackets rest := by
  obtain ⟨c, letters, rfl⟩ : ∃ c ls, letters = c :: ls := by
    cases letters with
    | nil => cases hl
    | cons c ls => exact ⟨c, ls, rfl⟩
  obtain ⟨hc, hls⟩ := Bool.and_eq_true_iff.mp hl
  have htake : (c :: letters ++ rest).takeWhile Numeral.continuesWord = c :: letters := by
    have hall : ∀ d ∈ c :: letters, Numeral.continuesWord d = true :=
      List.forall_mem_cons.mpr ⟨(Bool.and_eq_true_iff.mp (startsWord_of_identifier hc)).1,
        fun d hd => continuesWord_of_identifier (List.all_eq_true.mp hls d hd)⟩
    rw [List.takeWhile_append_of_pos hall]
    cases rest with
    | nil => exact List.append_nil _
    | cons d rest =>
      rw [List.takeWhile_cons_of_neg (by simp [(hrest d rfl).1]), List.append_nil]
  have hquote : quoteAhead rest = false := by
    cases rest with
    | nil => rfl
    | cons d rest => simp [quoteAhead, (hrest d rfl).2]
  have hgood : badIdentifier? (c :: letters) = none := by
    have hnone : letters.findIdx? (fun d => !isIdentifierContinue d) = none :=
      List.findIdx?_eq_none_iff.mpr fun d hd => by simp [List.all_eq_true.mp hls d hd]
    rw [badIdentifier?, hc, hnone]
    rfl
  let r := s.reader.settle false
  have hr : r.rest = c :: letters ++ rest := (Reader.rest_settle _ _).trans h.rest
  have hdrop : (c :: letters ++ rest).drop (c :: letters).length = rest := List.drop_left
  have hletters : r.rest.takeWhile Numeral.continuesWord = c :: letters := hr ▸ htake
  have hword := word_eq s r hletters
  rw [hr, hdrop, hquote, Bool.false_and, if_neg Bool.false_ne_true, hgood] at hword
  have hstep : step s = (s.word r).map fun p => (some p.1, p.2) := by
    rw [step_inside h.lineStart h.pending]
    exact inLine_word h.rest (startsWord_of_identifier hc)
  have hstands (lexeme : Lexeme) : Stands (s.take r lexeme (c :: letters).length none).2 false 0 levels brackets rest :=
    ⟨h.lineStart, h.pending, h.levels, h.brackets, by
      show (r.skipMany _).rest = rest
      rw [Reader.rest_skipMany, hr, hdrop]⟩
  rw [hstep, hword, wordLexeme]
  cases Keyword.ofText? (String.ofList (c :: letters)) with
  | some k => exact ⟨_, _, rfl, rfl, hstands (.word k)⟩
  | none => exact ⟨_, _, rfl, rfl, hstands (.name (String.ofList (c :: letters)))⟩

/-- A symbol of one character, where `open'` are the brackets that are open behind it. -/
theorem Stands.symbol {c : Char} {sym : Sym} {open' : List Char} (h : Stands s false 0 levels brackets (c :: rest))
    (hc : Other c rest) (hsym : Sym.longest? (c :: rest) = some (sym, 1))
    (hb : ∀ r, ∃ s₁, s.bracket r sym = .ok s₁ ∧ s₁.brackets.map (·.bracket) = open') :
    ∃ t s', step s = .ok (some t, s') ∧ t.lexeme = .symbol sym ∧ Stands s' false 0 levels open' rest := by
  let r := s.reader.settle false
  have hr : r.rest = c :: rest := (Reader.rest_settle _ _).trans h.rest
  obtain ⟨s₁, hs₁, hopen⟩ := hb r
  obtain ⟨⟨hp, hl⟩, hstart⟩ := bracket_frame hs₁
  refine ⟨(s₁.take r (.symbol sym) 1 none).1, (s₁.take r (.symbol sym) 1 none).2, ?_, rfl,
    ⟨hstart.trans h.lineStart, hp.trans h.pending, hl.trans h.levels, hopen, ?_⟩⟩
  · rw [step_inside h.lineStart h.pending, inLine_symbol h.rest hc, symbolOrStray]
    dsimp only [r] at hr hs₁ ⊢
    rw [hr, hsym]
    dsimp only
    rw [hs₁]
    rfl
  · show (r.skipMany 1).rest = rest
    rw [Reader.rest_skipMany, hr]
    rfl

/-- One of the marks of a header, in front of others that end with the row. -/
theorem Stands.mark {c : Char} {sym : Sym} {open' : List Char} (front : List Char)
    (h : Stands s false 0 levels brackets (c :: (front ++ '\n' :: rest))) (hc : c = ':' ∨ c = '(' ∨ c = ')')
    (hsym : Sym.longest? (c :: (front ++ ['\n'])) = some (sym, 1))
    (hb : ∀ r, ∃ s₁, s.bracket r sym = .ok s₁ ∧ s₁.brackets.map (·.bracket) = open') :
    ∃ t s', step s = .ok (some t, s') ∧ t.lexeme = .symbol sym ∧
      Stands s' false 0 levels open' (front ++ '\n' :: rest) := by
  have habreast : Abreast (c :: (front ++ '\n' :: rest)) (c :: (front ++ ['\n'])) := .behind (c :: front) rfl _ _
  have hother : Other c (front ++ '\n' :: rest) := by
    rcases hc with rfl | rfl | rfl
    all_goals exact ⟨by decide, by decide, by decide, Bool.false_ne_true, by decide, by decide⟩
  exact h.symbol hother ((Sym.longest?_twin habreast).1.trans hsym) hb

theorem Stands.colon (h : Stands s false 0 levels brackets (':' :: '\n' :: rest)) :
    ∃ t s', step s = .ok (some t, s') ∧ t.lexeme = .symbol .colon ∧ Stands s' false 0 levels brackets ('\n' :: rest) :=
  h.mark [] (.inl rfl) rfl fun _ => ⟨s, rfl, h.brackets⟩

theorem Stands.openPar (front : List Char) (h : Stands s false 0 levels [] ('(' :: (front ++ '\n' :: rest)))
    (hsym : Sym.longest? ('(' :: (front ++ ['\n'])) = some (.lpar, 1)) :
    ∃ t s', step s = .ok (some t, s') ∧ t.lexeme = .symbol .lpar ∧
      Stands s' false 0 levels ['('] (front ++ '\n' :: rest) := by
  refine h.mark front (.inr (.inl rfl)) hsym fun r =>
    ⟨{ s with brackets := ⟨'(', r.place⟩ :: s.brackets }, ?_, ?_⟩
  · have hlen : ¬s.brackets.length ≥ bracketLimit := by
      rw [List.map_eq_nil_iff.mp h.brackets]
      decide
    rw [bracket]
    exact if_neg hlen
  · rw [List.map_cons, h.brackets]

theorem Stands.closePar (front : List Char) (h : Stands s false 0 levels ['('] (')' :: (front ++ '\n' :: rest)))
    (hsym : Sym.longest? (')' :: (front ++ ['\n'])) = some (.rpar, 1)) :
    ∃ t s', step s = .ok (some t, s') ∧ t.lexeme = .symbol .rpar ∧
      Stands s' false 0 levels [] (front ++ '\n' :: rest) := by
  obtain ⟨b, bs, hbs, hb, hnil⟩ := List.map_eq_cons_iff.mp h.brackets
  refine h.mark front (.inr (.inr rfl)) hsym fun r => ⟨{ s with brackets := bs }, ?_, hnil⟩
  rw [bracket]
  dsimp only
  rw [hbs]
  exact if_pos hb

/-- The end of a row that holds code. -/
theorem Stands.row (h : Stands s false 0 levels [] ('\n' :: rest)) :
    ∃ t s', step s = .ok (some t, s') ∧ t.lexeme = .newline ∧ Stands s' true 0 levels [] rest := by
  obtain ⟨r, t, hr, ht, heq⟩ := inLine_row s.reader.rest.length false h.rest (.inl rfl)
  have hempty := h.isEmpty_brackets
  refine ⟨t, { s with reader := r, lineStart := true }, ?_, ht, ⟨rfl, h.pending, h.levels, h.brackets, ?_⟩⟩
  · rw [step_inside h.lineStart h.pending, heq, hempty]
    rfl
  · show r.rest = rest
    rw [hr, h.rest]
    rfl

/-- The margin of a row of which blanks are all that is in front of `rest`. -/
theorem Stands.margin {lineStart : Bool} {k : Nat}
    (h : Stands s lineStart pending levels brackets (List.replicate k ' ' ++ rest))
    (hc : ∀ c rest', rest = c :: rest' → c ≠ ' ' ∧ c ≠ '\t' ∧ c ≠ '\x0c' ∧ c ≠ '\\') :
    ∃ r, r.rest = rest ∧ margin (s.reader.rest.length + 1) s.reader 0 0 none = .ok (r, k, k) := by
  obtain ⟨fuel, r, hr, hf, heq⟩ := margin_blanks 0 0 none h.rest (Nat.lt_succ_self _)
  obtain ⟨fuel, rfl⟩ : ∃ n, fuel = n + 1 := ⟨fuel - 1, by omega⟩
  obtain ⟨r', hr', heq'⟩ := margin_stop fuel (0 + k) (0 + k) none (hr ▸ hc)
  refine ⟨r', hr'.trans hr, ?_⟩
  rw [heq, heq', Nat.zero_add]
  rfl

/-- A row that is indented like the row before. -/
theorem Stands.level (h : Stands s true 0 [] [] rest)
    (hc : ∀ c rest', rest = c :: rest' → c ≠ ' ' ∧ c ≠ '\t' ∧ c ≠ '\x0c' ∧ c ≠ '\\')
    (hcode : holdsNoCode rest = false) :
    ∃ s', step s = step s' ∧ Stands s' false 0 [] [] rest := by
  obtain ⟨r, hr, heq⟩ := h.margin (k := 0) hc
  have hs' : Stands { s with lineStart := false, reader := r } false 0 [] [] rest :=
    ⟨rfl, h.pending, h.levels, h.brackets, hr⟩
  have hbegin : begin s = .ok ({ s with lineStart := false, reader := r }, false) := by
    rw [begin_margin h.lineStart, heq]
    dsimp only
    rw [behindMargin, hr, hcode, h.isEmpty_brackets, Bool.not_true, Bool.or_false, if_neg Bool.false_ne_true, reindent]
    simp only [h.levels]
    rfl
  exact ⟨_, (step_of_begin hbegin).symm, hs'⟩

/-- A row that is indented deeper than the row before. -/
theorem Stands.indent {k : Nat} (h : Stands s true 0 levels [] (List.replicate k ' ' ++ rest))
    (hc : ∀ c rest', rest = c :: rest' → c ≠ ' ' ∧ c ≠ '\t' ∧ c ≠ '\x0c' ∧ c ≠ '\\') (hcode : holdsNoCode rest = false)
    (hcol : (levels.headD (0, 0)).1 < k) (halt : (levels.headD (0, 0)).2 < k) (hlen : levels.length + 2 ≤ indentLimit) :
    ∃ t s', step s = .ok (some t, s') ∧ t.lexeme = .indent ∧ Stands s' false 0 ((k, k) :: levels) [] rest := by
  obtain ⟨r, hr, heq⟩ := h.margin hc
  let s₁ : Scanner := { s with lineStart := false, reader := r, pending := s.pending + 1, levels := (k, k) :: s.levels }
  have hbegin : begin s = .ok (s₁, false) := by
    rw [begin_margin h.lineStart, heq]
    dsimp only
    rw [behindMargin, hr, hcode, h.isEmpty_brackets, Bool.not_true, Bool.or_false, if_neg Bool.false_ne_true, reindent]
    simp only [h.levels]
    rw [if_neg (by omega), if_pos hcol, if_neg (by omega), if_neg (by omega)]
    simp only [s₁, h.levels]
    rfl
  have hp : s₁.pending = 1 := by
    show s.pending + 1 = 1
    rw [h.pending, Int.zero_add]
  refine ⟨s₁.mark .indent, { s₁ with pending := s₁.pending - 1 }, ?_, rfl, ⟨rfl, ?_, ?_, h.brackets, hr⟩⟩
  · rw [step, hbegin]
    dsimp only
    rw [emit, hp, if_neg (by decide), if_pos (by decide)]
  · show s₁.pending - 1 = 0
    rw [hp, Int.sub_self]
  · show (k, k) :: s.levels = (k, k) :: levels
    rw [h.levels]

end Steps

section Run

/-- The lexemes of a header. -/
def headerLexemes (name : String) : List Lexeme :=
  [.word .class_, wordLexeme name.toList, .symbol .colon, .newline, .indent, .word .def_, .name "__call__",
    .symbol .lpar, .name "self", .symbol .rpar, .symbol .colon, .newline]

theorem reads_header {name : String} (hn : isIdentifier name.toList = true) (x : List Char) : ∃ ts w,
    Reads (ofText (unitHeader name ++ x)) ts w ∧ ts.map (·.lexeme) = headerLexemes name ∧
      Stands w true 0 [(4, 4)] [] x := by
  have htext : unitHeader name ++ x = "class".toList ++ (List.replicate 1 ' ' ++ (name.toList ++ (':' :: '\n' ::
      (List.replicate 4 ' ' ++ ("def".toList ++ (List.replicate 1 ' ' ++ ("__call__".toList ++ ('(' ::
        ("self):".toList ++ '\n' :: x))))))))) :=
    (List.append_assoc _ _ x).trans (List.append_assoc "class ".toList name.toList _)
  have h : Stands (ofText (unitHeader name ++ x)) true 0 [] [] _ := ⟨rfl, rfl, rfl, rfl, htext⟩
  obtain ⟨s₁, he₁, h₁⟩ := h.level (by rintro c rest ⟨⟩; decide) rfl
  obtain ⟨t₁, s₁', hs₁, hl₁, h₁⟩ := h₁.word rfl (by rintro c ⟨⟩; decide)
  obtain ⟨s₂, h₂, he₂⟩ := h₁.blanks
  obtain ⟨t₂, s₂', hs₂, hl₂, h₂⟩ := h₂.word hn (by rintro c ⟨⟩; decide)
  obtain ⟨t₃, s₃, hs₃, hl₃, h₃⟩ := h₂.colon
  obtain ⟨t₄, s₄, hs₄, hl₄, h₄⟩ := h₃.row
  obtain ⟨t₅, s₅, hs₅, hl₅, h₅⟩ := h₄.indent (by rintro c rest ⟨⟩; decide) rfl (by decide) (by decide) (by decide)
  obtain ⟨t₆, s₆, hs₆, hl₆, h₆⟩ := h₅.word rfl (by rintro c ⟨⟩; decide)
  obtain ⟨s₇, h₇, he₇⟩ := h₆.blanks
  obtain ⟨t₇, s₇', hs₇, hl₇, h₇⟩ := h₇.word rfl (by rintro c ⟨⟩; decide)
  obtain ⟨t₈, s₈, hs₈, hl₈, h₈⟩ := h₇.openPar "self):".toList rfl
  have h₈ : Stands s₈ _ _ _ _ ("self".toList ++ ')' :: ':' :: '\n' :: x) := h₈
  obtain ⟨t₉, s₉, hs₉, hl₉, h₉⟩ := h₈.word rfl (by rintro c ⟨⟩; decide)
  obtain ⟨t₁₀, s₁₀, hs₁₀, hl₁₀, h₁₀⟩ := h₉.closePar [':'] rfl
  obtain ⟨t₁₁, s₁₁, hs₁₁, hl₁₁, h₁₁⟩ := h₁₀.colon
  obtain ⟨t₁₂, s₁₂, hs₁₂, hl₁₂, h₁₂⟩ := h₁₁.row
  have hlexemes : [t₁, t₂, t₃, t₄, t₅, t₆, t₇, t₈, t₉, t₁₀, t₁₁, t₁₂].map (·.lexeme) = headerLexemes name := by
    simp only [List.map_cons, List.map_nil, hl₁, hl₂, hl₃, hl₄, hl₅, hl₆, hl₇, hl₈, hl₉, hl₁₀, hl₁₁, hl₁₂]
    rfl
  have hword {t : Token} {letters : List Char} (h : t.lexeme = wordLexeme letters) : t.lexeme ≠ .finish := by
    rw [h]
    exact wordLexeme_ne_finish letters
  have hother {t : Token} {l : Lexeme} (h : t.lexeme = l) (hl : l ≠ .finish) : t.lexeme ≠ .finish := by rwa [h]
  refine ⟨_, s₁₂, ?_, hlexemes, h₁₂⟩
  refine .token (he₁.trans hs₁) (hword hl₁) (.token (he₂.trans hs₂) (hword hl₂) (.token hs₃ (hother hl₃ nofun) ?_))
  refine .token hs₄ (hother hl₄ nofun) (.token hs₅ (hother hl₅ nofun) (.token hs₆ (hword hl₆) ?_))
  refine .token (he₇.trans hs₇) (hword hl₇) (.token hs₈ (hother hl₈ nofun) (.token hs₉ (hword hl₉) ?_))
  exact .token hs₁₀ (hother hl₁₀ nofun) (.token hs₁₁ (hother hl₁₁ nofun) (.token hs₁₂ (hother hl₁₂ nofun) (.here s₁₂)))

end Run

end Evalbox.Lang.Scanner

namespace Evalbox

open Text Lang Scanner

theorem not_mem_header {c : Char} {name : String} (hc : c = '\r' ∨ c = '\x00')
    (hname : isIdentifier name.toList = true) : c ∉ unitHeader name := by
  have hletters {letters : List Char} (h : isIdentifier letters = true) : c ∉ letters := by
    cases letters with
    | nil => cases h
    | cons d letters =>
      obtain ⟨hd, hl⟩ := Bool.and_eq_true_iff.mp h
      rintro (_ | ⟨_, hmem⟩)
      · rcases hc with rfl | rfl <;> cases hd
      · have hmem := List.all_eq_true.mp hl _ hmem
        rcases hc with rfl | rfl <;> cases hmem
  have hclass : c ∉ "class ".toList := by rcases hc with rfl | rfl <;> decide
  have hdef : c ∉ ":\n    def __call__(self):\n".toList := by rcases hc with rfl | rfl <;> decide
  intro h
  rcases List.mem_append.mp h with h | h
  · exact (List.mem_append.mp h).elim hclass (hletters hname)
  · exact hdef h

/-- Behind the header of a unit its scanner trails the one of the body. -/
theorem reads_unit {body : List Char} {name : String} (hname : isIdentifier name.toList = true) (hb : body ≠ []) :
    ∃ ts w x, Reads (Scanner.ofText (canonical (closed (unitHeader name ++ indent bodyIndent body)))) ts w ∧
      ts.map (·.lexeme) = headerLexemes name ∧ Stands w true 0 [(4, 4)] [] x ∧
      Trails (feedBehind body) (¬['\\', '\r'] <:+ body) (Scanner.ofText (canonical body)) w := by
  obtain ⟨p, hsource, hp⟩ := canonical_unit (not_mem_header (.inl rfl) hname) hb
  obtain ⟨ts, w, hreads, hlexemes, hstands⟩ := reads_header hname (bodyIndent ++ p)
  rw [hsource, List.append_assoc]
  refine ⟨ts, w, _, hreads, hlexemes, hstands, ⟨8, p, hstands.rest, ⟨hp, ?_, ?_, ?_⟩, fun _ => .inl ⟨rfl, ?_⟩⟩,
    hstands.lineStart, ?_, fun h => nomatch h⟩
  · rw [feedBehind]
    split
    · exact .inr rfl
    · exact .inl rfl
  · intro c hc
    exact Option.some.inj (hc.symm.trans (getLast?_canonical body))
  · intro hstrict htail hsuffix
    refine hstrict (suffix_of_canonical hsuffix (Classical.byContradiction fun hl => htail ?_))
    rw [feedBehind, if_neg hl]
  · exact canonical_ne_nil body
  · exact hstands.brackets

end Evalbox
