import Evalbox.Proofs.Unit.Orderly

/-!
# Texts that are the same up to some place

What a scanner does depends on the text in front of it only as far as it reads, and on where it stands not at all. Two
scanners go along each other while the text in front of them is the same (`Along`): they do the same as long as neither
reads beyond that (`step_along`).
-/

namespace Evalbox

open Text Lang Scanner

/-- No row goes on in front of a text with more blanks, or with the next row. -/
def Firm (u : List Char) : Prop := ∀ c rest, u = c :: rest → c ≠ ' ' ∧ c ≠ '\t' ∧ c ≠ '\x0c' ∧ c ≠ '\\'

/-- What stands behind the text that two scanners have in common. -/
structure Tails (u v : List Char) : Prop where
  nil : u = [] ↔ v = []
  left : Firm u
  right : Firm v
  code : holdsNoCode u = holdsNoCode v

/-- The scanners stand in front of the same text, behind which come the texts `u` and `v`, and are else the same but for
places. -/
structure Along (u v : List Char) (s w : Scanner) : Prop where
  rest : ∃ y, s.reader.rest = y ++ u ∧ w.reader.rest = y ++ v
  ended : Ended s.reader.rest
  start : w.lineStart = s.lineStart
  pending : w.pending = s.pending
  levels : w.levels = s.levels
  brackets : w.brackets.map (·.bracket) = s.brackets.map (·.bracket)

section Texts

variable {u v y : List Char}

/-- What is cut off a text inside its front. -/
theorem drop_along (huv : u = [] ↔ v = []) {n : Nat} (h : u <:+ (y ++ u).drop n) :
    (y ++ u).drop n = y.drop n ++ u ∧ (y ++ v).drop n = y.drop n ++ v ∧ (y ++ v).take n = (y ++ u).take n := by
  by_cases hn : n ≤ y.length
  · exact ⟨List.drop_append_of_le_length hn, List.drop_append_of_le_length hn,
      (List.take_append_of_le_length hn).trans (List.take_append_of_le_length hn).symm⟩
  · have hlen := h.length_le
    rw [List.length_drop, List.length_append] at hlen
    obtain rfl : u = [] := List.length_eq_zero_iff.mp (by omega)
    obtain rfl := huv.mp rfl
    simp

end Texts

section Margins

variable {u v y : List Char}

theorem continueLine_along (huv : u = [] ↔ v = []) {r r' r₁ : Reader} {inToken : Bool} (hr : r.rest = y ++ u)
    (hr' : r'.rest = y ++ v) (h : continueLine r inToken = .ok r₁) (hu : u <:+ r₁.rest) :
    ∃ y₁ r₁', y = '\n' :: y₁ ∧ r₁.rest = y₁ ++ u ∧ r₁'.rest = y₁ ++ v ∧ continueLine r' inToken = .ok r₁' := by
  rcases continueLine_eq r inToken with ⟨c, rest, r₂, hrest, hr₂, heq⟩ | ⟨-, r₂, stop, heq, -⟩
  · obtain rfl := Except.ok.inj (heq.symm.trans h)
    rw [hr₂] at hu ⊢
    rw [hr] at hrest
    cases y with
    | nil =>
      rw [List.nil_append] at hrest
      rw [hrest] at hu
      exact absurd hu.length_le (by simp)
    | cons d y =>
      obtain ⟨rfl, hy⟩ := List.cons.inj hrest
      have hne : y ++ v ≠ [] := by
        intro hnil
        obtain ⟨rfl, hv⟩ := List.append_eq_nil_iff.mp hnil
        rw [huv.mpr hv] at hy
        cases hy
      obtain ⟨d, rest', hd⟩ := List.exists_cons_of_ne_nil hne
      rcases continueLine_eq r' inToken with ⟨c', rest₁, r₂', hrest', hr₂', heq'⟩ | ⟨hno, -⟩
      · refine ⟨y, r₂', rfl, hy.symm, ?_, heq'⟩
        rw [hr₂']
        exact (List.cons.inj (hrest'.symm.trans hr')).2
      · exact absurd (by rw [hr', List.cons_append, hd]) (hno d rest')
  · cases heq.symm.trans h

theorem continueLine_rest {r r₁ : Reader} {inToken : Bool} (h : continueLine r inToken = .ok r₁) :
    r.rest = '\n' :: r₁.rest ∧ r₁.rest ≠ [] := by
  rcases continueLine_eq r inToken with ⟨c, rest, r₂, hr, hr₂, heq⟩ | ⟨-, r₂, stop, heq, -⟩
  · obtain rfl := Except.ok.inj (heq.symm.trans h)
    exact ⟨by rw [hr, hr₂], by rw [hr₂]; exact List.cons_ne_nil c rest⟩
  · cases heq.symm.trans h

theorem margin_along (ht : Tails u v) {fuel fuel' col alt : Nat} {kept : Option Nat} {r r' r₁ : Reader} {m : Nat × Nat}
    (hr : r.rest = y ++ u) (hr' : r'.rest = y ++ v) (hf : r.rest.length < fuel) (hf' : r'.rest.length < fuel')
    (h : margin fuel r col alt kept = .ok (r₁, m)) (hu : u <:+ r₁.rest) :
    ∃ y₁ r₁', r₁.rest = y₁ ++ u ∧ r₁'.rest = y₁ ++ v ∧ margin fuel' r' col alt kept = .ok (r₁', m) := by
  induction fuel generalizing r r' y col alt kept fuel' with
  | zero => exact absurd hf (Nat.not_lt_zero _)
  | succ fuel ih =>
    obtain ⟨fuel', rfl⟩ : ∃ n, fuel' = n + 1 := ⟨fuel' - 1, by omega⟩
    have hstop (hstop : ∀ c rest, r.rest = c :: rest → c ≠ ' ' ∧ c ≠ '\t' ∧ c ≠ '\x0c' ∧ c ≠ '\\')
        (hstop' : ∀ c rest, r'.rest = c :: rest → c ≠ ' ' ∧ c ≠ '\t' ∧ c ≠ '\x0c' ∧ c ≠ '\\') :
        ∃ y₁ r₁', r₁.rest = y₁ ++ u ∧ r₁'.rest = y₁ ++ v ∧ margin (fuel' + 1) r' col alt kept = .ok (r₁', m) := by
      obtain ⟨r₂, hr₂, heq⟩ := margin_stop fuel col alt kept hstop
      obtain ⟨r₂', hr₂', heq'⟩ := margin_stop fuel' col alt kept hstop'
      obtain ⟨rfl, rfl⟩ := Prod.mk.inj (Except.ok.inj (heq.symm.trans h))
      exact ⟨y, r₂', hr₂.trans hr, hr₂'.trans hr', heq'⟩
    cases y with
    | nil => exact hstop (hr ▸ ht.left) (hr' ▸ ht.right)
    | cons d y =>
      have hsame {p : Char → Prop} {a b : List Char} (h : ∀ c rest, d :: a = c :: rest → p c) :
          ∀ c rest, d :: b = c :: rest → p c := by
        rintro c rest heq
        obtain ⟨rfl, -⟩ := List.cons.inj heq
        exact h d a rfl
      rcases margin_glance r.rest with ⟨c, rest, hrest, hc⟩ | ⟨rest, hrest⟩ | hs
      · obtain ⟨rfl, rfl⟩ := List.cons.inj (hr.symm.trans hrest)
        obtain ⟨r₂, hr₂, heq⟩ := margin_blank fuel col alt kept hr hc
        obtain ⟨r₂', hr₂', heq'⟩ := margin_blank fuel' col alt kept hr' hc
        rw [heq] at h
        rw [heq']
        refine ih hr₂ hr₂' ?_ ?_ h
        · rw [hr₂]
          rw [hr] at hf
          exact Nat.lt_of_succ_lt_succ hf
        · rw [hr₂']
          rw [hr'] at hf'
          exact Nat.lt_of_succ_lt_succ hf'
      · obtain ⟨rfl, rfl⟩ := List.cons.inj (hr.symm.trans hrest)
        obtain ⟨r₂, hr₂, heq⟩ := margin_backslash fuel col alt kept hr
        obtain ⟨r₂', hr₂', heq'⟩ := margin_backslash fuel' col alt kept hr'
        rw [heq] at h
        rw [heq']
        cases hc : continueLine r₂ false with
        | error e =>
          rw [hc] at h
          cases h
        | ok r₃ =>
          rw [hc] at h
          have hsuffix := margin_suffix h
          obtain ⟨y₃, r₃', rfl, hr₃, hr₃', hc'⟩ := continueLine_along ht.nil hr₂ hr₂' hc (hu.trans hsuffix)
          rw [hc']
          refine ih hr₃ hr₃' ?_ ?_ h
          · rw [hr₃]
            rw [hr] at hf
            simp only [List.cons_append, List.length_cons] at hf
            omega
          · rw [hr₃']
            rw [hr'] at hf'
            simp only [List.cons_append, List.length_cons] at hf'
            omega
      · rw [hr] at hs
        exact hstop (hr ▸ hs) (hr' ▸ hsame hs)

theorem holdsNoCode_along (ht : Tails u v) (y : List Char) : holdsNoCode (y ++ v) = holdsNoCode (y ++ u) := by
  cases y with
  | nil => exact ht.code.symm
  | cons c y => rfl

variable {s w s₁ : Scanner} {r r' : Reader} {blank : Bool}

theorem reindent_along (hl : w.levels = s.levels) (hp : w.pending = s.pending) {col alt : Nat}
    (h : s.reindent r col alt = .ok s₁) (r' : Reader) : ∃ w₁, w.reindent r' col alt = .ok w₁ ∧
      w₁.levels = s₁.levels ∧ w₁.pending = s₁.pending := by
  rw [reindent] at h ⊢
  rw [hl]
  dsimp only at h ⊢
  split at h
  · rw [if_pos ‹_›]
    split at h
    · obtain rfl := Except.ok.inj h
      exact ⟨_, if_pos ‹_›, rfl, hp⟩
    · cases h
  · rw [if_neg ‹_›]
    split at h
    · rw [if_pos ‹_›]
      split at h
      · cases h
      · rw [if_neg ‹_›]
        split at h
        · cases h
        · obtain rfl := Except.ok.inj h
          exact ⟨_, if_neg ‹_›, rfl, congrArg (· + 1) hp⟩
    · rw [if_neg ‹_›]
      split at h
      · cases h
      · rw [if_neg ‹_›]
        split at h
        · cases h
        · obtain rfl := Except.ok.inj h
          exact ⟨_, if_neg ‹_›, rfl, congrArg (· - _) hp⟩

theorem Along.begin (ht : Tails u v) (h : Along u v s w) (hb : Scanner.begin s = .ok (s₁, blank))
    (hu : u <:+ s₁.reader.rest) : ∃ w₁, Scanner.begin w = .ok (w₁, blank) ∧ Along u v s₁ w₁ := by
  obtain ⟨y, hs, hw⟩ := h.rest
  obtain ⟨⟨front, hfront⟩, hinside, hbrackets, -⟩ := begin_frame hb
  have hended : Ended s₁.reader.rest := Ended.suffix (hfront ▸ h.ended)
  cases hstart : s.lineStart with
  | false =>
    obtain ⟨rfl, rfl⟩ := Prod.mk.inj (Except.ok.inj ((begin_inside hstart).symm.trans hb))
    exact ⟨w, begin_inside (h.start.trans hstart), h⟩
  | true =>
    rw [begin_margin hstart] at hb
    rw [begin_margin (h.start.trans hstart)]
    split at hb
    · cases hb
    case _ r m hm =>
    have hreader := (behindMargin_ok hb).reader
    obtain ⟨y₁, r', hr, hr', hm'⟩ := margin_along ht hs hw (Nat.lt_succ_self _) (Nat.lt_succ_self _) hm (hreader ▸ hu)
    rw [hm']
    have hcode : holdsNoCode r'.rest = holdsNoCode r.rest := by rw [hr, hr', holdsNoCode_along ht]
    have hempty : w.brackets.isEmpty = s.brackets.isEmpty := by
      have := congrArg List.isEmpty h.brackets
      rwa [List.isEmpty_map, List.isEmpty_map] at this
    dsimp only
    rcases behindMargin_cases hb with ⟨hnone, rfl, rfl⟩ | ⟨hsome, hnil, rfl, hr₁⟩
    · rw [behindMargin, hcode, hempty, if_pos hnone]
      exact ⟨_, rfl, ⟨y₁, hr, hr'⟩, hended, rfl, h.pending, h.levels, h.brackets⟩
    · obtain ⟨w₁, hw₁, hl, hp⟩ := reindent_along (s := { s with lineStart := false, reader := r })
        (w := { w with lineStart := false, reader := r' }) h.levels h.pending hr₁ r'
      obtain ⟨hreader', hstart', hbrackets'⟩ := reindent_frame hw₁
      rw [behindMargin, hcode, hempty, hnil, hsome]
      refine ⟨w₁, by rw [hw₁]; rfl, ⟨y₁, hreader ▸ hr, hreader' ▸ hr'⟩, hended, ?_, hp, hl, ?_⟩
      · rw [hstart', hinside]
      · rw [hbrackets', hbrackets]
        exact h.brackets

end Margins

section Literals

variable {u v y : List Char} {quote : Char} {size run n m : Nat}

/-- Whether a literal ends at a place does not depend on what comes behind it. -/
theorem stringEnd_front {lit after : List Char} (h : stringEnd quote size run (lit ++ after) n = .ok (n + lit.length))
    (after' : List Char) : stringEnd quote size run (lit ++ after') n = .ok (n + lit.length) := by
  generalize ht : lit ++ after = text at h
  induction run, text, n using stringEnd.induct quote size generalizing lit with
  | case1 run n => cases h
  | case2 run c rest n hn =>
    rw [stringEnd_break hn] at h
    cases h
  | case3 run rest n hs hn =>
    obtain ⟨hl, -⟩ | ⟨lit, rfl, rfl⟩ := List.append_eq_cons_iff.mp ht
    · exact absurd hl (ne_nil_of_stringEnd h)
    rw [stringEnd_quote hn, if_pos hs] at h
    exact (stringEnd_quote hn _).trans ((if_pos hs).trans h)
  | case4 run rest n hs hn ih =>
    obtain ⟨hl, -⟩ | ⟨lit, rfl, rfl⟩ := List.append_eq_cons_iff.mp ht
    · exact absurd hl (ne_nil_of_stringEnd h)
    rw [stringEnd_quote hn, if_neg hs, List.length_cons, Nat.add_comm lit.length, ← Nat.add_assoc] at h
    rw [List.cons_append, stringEnd_quote hn, if_neg hs, ih rfl h, List.length_cons, Nat.add_assoc, Nat.add_comm 1]
  | case5 run n hn hb =>
    rw [stringEnd_lone hb] at h
    cases h
  | case6 run n c rest hn hb ih =>
    obtain ⟨hl, -⟩ | ⟨lit, rfl, htail⟩ := List.append_eq_cons_iff.mp ht
    · exact absurd hl (ne_nil_of_stringEnd h)
    rw [stringEnd_escape hb] at h
    -- the escaped character belongs to the literal, which ends behind it
    obtain ⟨rfl, -⟩ | ⟨lit, rfl, rfl⟩ := List.append_eq_cons_iff.mp htail.symm
    · exact absurd (lt_of_stringEnd h) (Nat.not_lt.mpr (Nat.le_succ (n + 1)))
    have hlen : n + ('\\' :: c :: lit).length = n + 2 + lit.length := by simp only [List.length_cons]; omega
    rw [hlen] at h ⊢
    exact (stringEnd_escape hb c _).trans (ih rfl h)
  | case7 run c rest n hn hc hb ih =>
    obtain ⟨hl, -⟩ | ⟨lit, rfl, rfl⟩ := List.append_eq_cons_iff.mp ht
    · exact absurd hl (ne_nil_of_stringEnd h)
    have hlen : n + (c :: lit).length = n + 1 + lit.length := by rw [List.length_cons]; omega
    rw [stringEnd_other hn hc hb, hlen] at h
    rw [List.cons_append, stringEnd_other hn hc hb, hlen]
    exact ih rfl h

theorem stringEnd_along (h : stringEnd quote size run (y ++ u) n = .ok m) (hm : m ≤ n + y.length) :
    stringEnd quote size run (y ++ v) n = .ok m := by
  obtain ⟨lit, after, htext, rfl, -⟩ := stringEnd_closed h
  obtain ⟨y, rfl⟩ : ∃ y', y = lit ++ y' := by
    refine ⟨y.drop lit.length, ?_⟩
    have htake := congrArg (List.take lit.length) htext
    rw [List.take_left, List.take_append_of_le_length (by omega)] at htake
    conv_lhs => rw [← List.take_append_drop lit.length y, htake]
  rw [List.append_assoc] at h ⊢
  exact stringEnd_front h _

end Literals

/-- Nothing stands behind the common text, or in both texts the end of a row or of a statement, at which every token
ends. -/
inductive Apart : List Char → List Char → Prop
  | nil : Apart [] []
  | stop {c : Char} (hc : c = '\n' ∨ c = ';') (u v : List Char) : Apart (c :: u) (c :: v)

namespace Apart

variable {u v y : List Char} {quote : Char} {n : Nat}

theorem isStop {c : Char} (hc : c = '\n' ∨ c = ';') : Lang.isStop c = true := by rcases hc with rfl | rfl <;> rfl

theorem tails (h : Apart u v) : Tails u v := by
  cases h with
  | nil => exact ⟨Iff.rfl, nofun, nofun, rfl⟩
  | stop hc =>
    have hfirm {u : List Char} {c : Char} (hc : c = '\n' ∨ c = ';') : Firm (c :: u) := by
      rintro d rest ⟨⟩
      rcases hc with rfl | rfl <;> decide
    exact ⟨by simp, hfirm hc, hfirm hc, rfl⟩

theorem abreast (h : Apart u v) (he : Ended (y ++ u)) (hne : y ++ u ≠ []) : Abreast (y ++ u) (y ++ v) := by
  cases h with
  | nil =>
    obtain ⟨front, hfront⟩ : ∃ front, y = front ++ ['\n'] := by
      have hlast := he.getLast? hne
      rw [List.append_nil] at hlast
      exact List.getLast?_eq_some_iff.mp hlast
    rw [hfront, List.append_nil]
    exact .behind front rfl _ _
  | stop hc u v => exact .behind y (isStop hc) _ _

theorem stringLength (hq : IsQuote quote) (huv : Apart u v) {letters rest : List Char}
    (hr : y ++ u = letters ++ quote :: rest) (h : Scanner.stringLength letters.length (y ++ u) = .ok n)
    (hu : u <:+ (y ++ u).drop n) : Scanner.stringLength letters.length (y ++ v) = .ok n := by
  cases huv with
  | nil => exact h
  | @stop c hc u v =>
    have hn : n ≤ y.length := by
      have hlen := hu.length_le
      simp only [List.length_drop, List.length_append, List.length_cons] at hlen
      omega
    have hcq : c ≠ quote := by rcases hc with rfl | rfl <;> rcases hq with rfl | rfl <;> decide
    rw [hr] at h
    -- the quote that opens the literal stands in the common text
    have hopen (hlt : letters.length < n) : ∃ y', y = letters ++ quote :: y' ∧ rest = y' ++ c :: u := by
      rcases List.append_eq_append_iff.mp hr with ⟨a, rfl, ha⟩ | ⟨a, rfl, ha⟩
      · rw [List.length_append] at hlt
        omega
      · cases a with
        | nil =>
          rw [List.append_nil] at hn
          omega
        | cons d a =>
          obtain ⟨rfl, rfl⟩ := List.cons.inj ha
          exact ⟨a, rfl, rfl⟩
    by_cases ht : rest.take 2 = [quote, quote]
    · obtain ⟨body, rfl⟩ : ∃ body, rest = quote :: quote :: body :=
        ⟨rest.drop 2, by rw [← List.take_append_drop 2 rest, ht]; rfl⟩
      rw [stringLength_long, mapError_eq_ok] at h
      have hlt := lt_of_stringEnd h
      simp only [List.length_append, List.length_cons, List.length_nil] at hlt
      obtain ⟨y', rfl, hy⟩ := hopen (by omega)
      simp only [List.length_append, List.length_cons] at hn
      obtain ⟨y'', rfl⟩ : ∃ y'', y' = quote :: quote :: y'' := by
        match y', hy with
        | [], hy | [_], hy => simp only [List.length_nil, List.length_cons] at hn; omega
        | d :: e :: y'', hy =>
          obtain ⟨hd, hy⟩ := List.cons.inj hy
          obtain ⟨he, -⟩ := List.cons.inj hy
          exact ⟨y'', by rw [← hd, ← he]⟩
      obtain rfl : body = y'' ++ c :: u := (List.cons.inj (List.cons.inj hy).2).2
      have hshape : letters ++ quote :: quote :: quote :: y'' ++ c :: v =
          letters ++ quote :: quote :: quote :: (y'' ++ c :: v) := by simp
      rw [hshape, stringLength_long, mapError_eq_ok]
      refine stringEnd_along h ?_
      simp only [List.length_append, List.length_cons, List.length_nil] at hn ⊢
      omega
    · rw [stringLength_short hq _ ht, mapError_eq_ok] at h
      have hlt := lt_of_stringEnd h
      simp only [List.length_append, List.length_cons, List.length_nil] at hlt
      obtain ⟨y', rfl, rfl⟩ := hopen (by omega)
      simp only [List.length_append, List.length_cons] at hn
      have ht' : (y' ++ c :: v).take 2 ≠ [quote, quote] := by
        match y', ht with
        | [], _ => simp only [List.length_nil] at hn; omega
        | [d], _ => exact fun h => hcq (List.cons.inj (List.cons.inj h).2).1
        | _ :: _ :: _, ht => exact ht
      have hshape : letters ++ quote :: y' ++ c :: v = letters ++ quote :: (y' ++ c :: v) := by simp
      rw [hshape, stringLength_short hq _ ht', mapError_eq_ok]
      refine stringEnd_along h ?_
      simp only [List.length_append, List.length_cons, List.length_nil] at hn ⊢
      omega

end Apart

section Tokens

variable {u v y : List Char} {s w : Scanner} {r r' : Reader}

/-- Two tokens that are the same but for places, and the scanners behind them. -/
def ReadAlong (u v : List Char) (x y : Token × Scanner) : Prop := y.1.lexeme = x.1.lexeme ∧ Along u v x.2 y.2

/-- A token that ends in the common text. -/
theorem Along.take (huv : u = [] ↔ v = []) (h : Along u v { s with reader := r } { w with reader := r' })
    (lexeme : Lexeme) {n : Nat} (warning warning' : Option String) (hu : u <:+ r.rest.drop n) :
    ReadAlong u v (s.take r lexeme n warning) (w.take r' lexeme n warning') := by
  obtain ⟨y, hr, hr'⟩ := h.rest
  have hr : r.rest = y ++ u := hr
  have hr' : r'.rest = y ++ v := hr'
  rw [hr] at hu
  obtain ⟨hdrop, hdrop', -⟩ := drop_along huv hu
  have hrest : (r.skipMany n).rest = y.drop n ++ u := by rw [Reader.rest_skipMany, hr, hdrop]
  have hrest' : (r'.skipMany n).rest = y.drop n ++ v := by rw [Reader.rest_skipMany, hr', hdrop']
  refine ⟨rfl, ⟨_, hrest, hrest'⟩, ?_, h.start, h.pending, h.levels, h.brackets⟩
  show Ended (r.skipMany n).rest
  have he : Ended r.rest := h.ended
  rw [Reader.rest_skipMany]
  exact Ended.suffix (a := r.rest.take n) ((List.take_append_drop n r.rest).symm ▸ he)

variable {x : Token × Scanner}

/-- The rest behind a token that was taken. -/
theorem rest_take {lexeme : Lexeme} {n : Nat} {warning : Option String} (hu : u <:+ (s.take r lexeme n warning).2.reader.rest) :
    u <:+ r.rest.drop n := by
  have hu : u <:+ (r.skipMany n).rest := hu
  rwa [Reader.rest_skipMany] at hu

theorem Along.string (huv : Apart u v) (h : Along u v { s with reader := r } { w with reader := r' })
    {letters rest : List Char} {quote : Char} (hq : IsQuote quote) (hr : r.rest = letters ++ quote :: rest)
    (hx : s.string r letters.length = .ok x) (hu : u <:+ x.2.reader.rest) :
    ∃ x', w.string r' letters.length = .ok x' ∧ ReadAlong u v x x' := by
  obtain ⟨y, hy, hy'⟩ := h.rest
  have hy : r.rest = y ++ u := hy
  have hy' : r'.rest = y ++ v := hy'
  rw [Scanner.string] at hx ⊢
  cases hn : stringLength letters.length r.rest with
  | error e =>
    rw [hn] at hx
    cases hx
  | ok n =>
    rw [hn] at hx
    obtain rfl := Except.ok.inj hx
    have hu := rest_take hu
    have htake := (drop_along huv.tails.nil (hy ▸ hu)).2.2
    rw [hy'] at *
    rw [huv.stringLength hq (hy ▸ hr) (hy ▸ hn) (hy ▸ hu)]
    dsimp only
    rw [htake, ← hy]
    exact ⟨_, rfl, h.take huv.tails.nil _ _ _ hu⟩

theorem Along.number (huv : Apart u v) (h : Along u v { s with reader := r } { w with reader := r' })
    (hne : r.rest ≠ []) (hx : s.number r = .ok x) (hu : u <:+ x.2.reader.rest) :
    ∃ x', w.number r' = .ok x' ∧ ReadAlong u v x x' := by
  obtain ⟨y, hy, hy'⟩ := h.rest
  have hy : r.rest = y ++ u := hy
  have hy' : r'.rest = y ++ v := hy'
  have htwin := Numeral.scan_twin (huv.abreast (hy ▸ h.ended) (hy ▸ hne))
  rw [Scanner.number] at hx ⊢
  rw [hy', ← htwin.same, ← hy]
  cases hn : Numeral.scan r.rest with
  | found n warning =>
    rw [hn] at hx
    obtain rfl := Except.ok.inj hx
    have hu := rest_take hu
    have htake := (drop_along huv.tails.nil (hy ▸ hu)).2.2
    dsimp only
    rw [htake, ← hy]
    exact ⟨_, rfl, h.take huv.tails.nil _ _ _ hu⟩
  | malformed | leadingZeros =>
    rw [hn] at hx
    cases hx

theorem Along.word (huv : Apart u v) (h : Along u v { s with reader := r } { w with reader := r' })
    (hne : r.rest ≠ []) (hx : s.word r = .ok x) (hu : u <:+ x.2.reader.rest) :
    ∃ x', w.word r' = .ok x' ∧ ReadAlong u v x x' := by
  obtain ⟨y, hy, hy'⟩ := h.rest
  have hy : r.rest = y ++ u := hy
  have hy' : r'.rest = y ++ v := hy'
  rcases (huv.abreast (hy ▸ h.ended) (hy ▸ hne)).word with ⟨letters, a, b, ha, hb, hl, hab, hwa, hwb⟩ | ⟨hba, -⟩
  · rw [← hy] at ha hwa
    rw [← hy'] at hb hwb
    have hdrop : r.rest.drop letters.length = a := by rw [ha, List.drop_left]
    have hdrop' : r'.rest.drop letters.length = b := by rw [hb, List.drop_left]
    rw [word_eq s r hwa, hdrop] at hx
    rw [word_eq w r' hwb, hdrop', ← Inside.quoteAhead_eq hab]
    split at hx
    case isTrue hquoted =>
      rw [if_pos hquoted]
      obtain ⟨q, rest, rfl, hquote⟩ := Inside.exists_of_quoteAhead (Bool.and_eq_true_iff.mp hquoted).1
      exact h.string huv hquote ha hx hu
    case isFalse hquoted =>
      rw [if_neg hquoted]
      cases hbad : badIdentifier? letters with
      | some p =>
        rw [hbad] at hx
        cases hx
      | none =>
        rw [hbad] at hx
        dsimp only at hx ⊢
        cases hk : Keyword.ofText? (String.ofList letters) with
        | some k =>
          rw [hk] at hx
          obtain rfl := Except.ok.inj hx
          exact ⟨_, rfl, h.take huv.tails.nil _ _ _ (rest_take hu)⟩
        | none =>
          rw [hk] at hx
          obtain rfl := Except.ok.inj hx
          exact ⟨_, rfl, h.take huv.tails.nil _ _ _ (rest_take hu)⟩
  · obtain ⟨e, he⟩ := Inside.word_broken s r (hy ▸ hba)
    cases he.symm.trans hx

/-- What a symbol, or a character that no token begins with, comes to. -/
theorem Along.symbolOrStray (huv : u = [] ↔ v = []) (h : Along u v { s with reader := r } { w with reader := r' })
    (hsame : Sym.longest? r'.rest = Sym.longest? r.rest) {c : Char} {t : Option Token} {s' : Scanner}
    (hx : s.symbolOrStray r c = .ok (t, s')) (hu : u <:+ s'.reader.rest) :
    ∃ t' w', w.symbolOrStray r' c = .ok (t', w') ∧ t'.map (·.lexeme) = t.map (·.lexeme) ∧ Along u v s' w' := by
  rw [Scanner.symbolOrStray] at hx ⊢
  rw [hsame]
  cases hs : Sym.longest? r.rest with
  | some p =>
    obtain ⟨sym, n⟩ := p
    rw [hs] at hx
    dsimp only at hx ⊢
    cases hb : s.bracket r sym with
    | error e =>
      rw [hb] at hx
      cases hx
    | ok s₁ =>
      rw [hb] at hx
      obtain ⟨rfl, rfl⟩ := Prod.mk.inj (Except.ok.inj hx)
      have hbrackets : w.brackets.map (·.bracket) = s.brackets.map (·.bracket) := h.brackets
      have hagree : Agree True _ (s.bracket r sym) (w.bracket r' sym) := bracket_agree hbrackets sym
      rw [hb] at hagree
      generalize hb' : w.bracket r' sym = y at hagree
      cases hagree with
      | @ok _ w₁ hbrackets =>
        obtain ⟨⟨hp, hl⟩, hstart⟩ := bracket_frame hb
        obtain ⟨⟨hp', hl'⟩, hstart'⟩ := bracket_frame hb'
        have h₁ : Along u v { s₁ with reader := r } { w₁ with reader := r' } :=
          ⟨h.rest, h.ended, hstart'.trans (h.start.trans hstart.symm), hp'.trans (h.pending.trans hp.symm),
            hl'.trans (h.levels.trans hl.symm), hbrackets.2.2⟩
        obtain ⟨hlexeme, halong⟩ := h₁.take huv (.symbol sym) none none (rest_take hu)
        exact ⟨_, _, rfl, congrArg some hlexeme, halong⟩
  | none =>
    rw [hs] at hx
    dsimp only at hx ⊢
    split at hx
    · rw [if_pos ‹_›]
      obtain ⟨rfl, rfl⟩ := Prod.mk.inj (Except.ok.inj hx)
      obtain ⟨hlexeme, halong⟩ := h.take huv .stray none none (rest_take hu)
      exact ⟨_, _, rfl, congrArg some hlexeme, halong⟩
    · cases hx

end Tokens

section InLine

variable {u v y : List Char} {s s' w : Scanner} {r r' : Reader} {t : Option Token} {blank : Bool}

/-- What a row is read up to. -/
theorem row_along (huv : u = [] ↔ v = []) (he : Ended (y ++ u)) (hne : y ++ u ≠ [])
    (hu : u <:+ ((y ++ u).dropWhile (· ≠ '\n')).tail) : ∃ y₁, ((y ++ u).dropWhile (· ≠ '\n')).tail = y₁ ++ u ∧
      ((y ++ v).dropWhile (· ≠ '\n')).tail = y₁ ++ v := by
  have hmem : '\n' ∈ y := by
    refine Classical.byContradiction fun hno => ?_
    have hall : ∀ c ∈ y, decide (c ≠ '\n') = true := fun c hc => decide_eq_true fun h => hno (h ▸ hc)
    rw [List.dropWhile_append_of_pos hall] at hu
    have hlen := hu.length_le
    have hlen' := (List.dropWhile_suffix (l := u) (· ≠ '\n')).length_le
    rw [List.length_tail] at hlen
    obtain rfl : u = [] := List.length_eq_zero_iff.mp (by omega)
    have hn := he.mem hne
    rw [List.append_nil] at hn
    exact hno hn
  have hdrop (a : List Char) : (y ++ a).dropWhile (· ≠ '\n') = y.dropWhile (· ≠ '\n') ++ a := by
    rw [List.dropWhile_append, if_neg]
    rw [List.isEmpty_iff, List.dropWhile_eq_nil_iff]
    exact fun h => absurd (h _ hmem) (by decide)
  have htail (a : List Char) : (y.dropWhile (· ≠ '\n') ++ a).tail = (y.dropWhile (· ≠ '\n')).tail ++ a := by
    cases hd : y.dropWhile (· ≠ '\n') with
    | nil => exact absurd (List.dropWhile_eq_nil_iff.mp hd _ hmem) (by decide)
    | cons => rfl
  exact ⟨_, by rw [hdrop, htail], by rw [hdrop, htail]⟩

/-- The end of a row or of a statement, a row without code, or what is handed over in front of a row. -/
def Light (t : Option Token) : Prop := ∀ u, t = some u → u.lexeme.isWall = true

/-- A text that a token begins that does not end a row or a statement. -/
def Sharp (u : List Char) : Prop := ∃ c rest, u = c :: rest ∧ c ∉ [' ', '\t', '\x0c', '\\', '\n', '#', ';']

theorem Sharp.tails (hu : Sharp u) (hv : Sharp v) : Tails u v := by
  have hfirm {u : List Char} (hu : Sharp u) : Firm u := by
    obtain ⟨c, rest, rfl, hc⟩ := hu
    rintro d rest' ⟨⟩
    simp only [List.mem_cons, not_or] at hc
    exact ⟨hc.1, hc.2.1, hc.2.2.1, hc.2.2.2.1⟩
  have hcode {u : List Char} (hu : Sharp u) : holdsNoCode u = false := by
    obtain ⟨c, rest, rfl, hc⟩ := hu
    simp only [List.mem_cons, not_or] at hc
    simp [holdsNoCode, hc]
  have hne {u : List Char} (hu : Sharp u) : u ≠ [] := by
    obtain ⟨c, rest, rfl, -⟩ := hu
    exact List.cons_ne_nil _ _
  exact ⟨⟨fun h => absurd h (hne hu), fun h => absurd h (hne hv)⟩, hfirm hu, hfirm hv, (hcode hu).trans (hcode hv).symm⟩

/-- Words, numbers and literals are taken where the reader stands, and end neither a row nor a statement. -/
theorem exists_take {x : Token × Scanner}
    (h : s.word r = .ok x ∨ s.number r = .ok x ∨ ∃ letters, s.string r letters = .ok x) :
    ∃ l n warning, x = s.take r l n warning ∧ l.isWall = false := by
  have hstring {letters : Nat} (h : s.string r letters = .ok x) :
      ∃ l n warning, x = s.take r l n warning ∧ l.isWall = false := by
    rw [Scanner.string] at h
    split at h
    · exact ⟨_, _, _, (Except.ok.inj h).symm, rfl⟩
    · cases h
  rcases h with h | h | ⟨_, h⟩
  · rw [word_eq s r rfl] at h
    split at h
    · exact hstring h
    · split at h
      · cases h
      · split at h
        all_goals exact ⟨_, _, _, (Except.ok.inj h).symm, rfl⟩
  · rw [Scanner.number] at h
    split at h
    · exact ⟨_, _, _, (Except.ok.inj h).symm, rfl⟩
    · cases h
    · cases h
  · exact hstring h

theorem not_light {x : Token × Scanner}
    (h : s.word r = .ok x ∨ s.number r = .ok x ∨ ∃ letters, s.string r letters = .ok x) : ¬Light (some x.1) := by
  obtain ⟨l, n, warning, rfl, hl⟩ := exists_take h
  exact fun hlight => absurd (hl.symm.trans (hlight _ rfl)) Bool.false_ne_true

theorem head_of_semi {a : List Char} {n : Nat} (h : Sym.longest? a = some (.semi, n)) : a.head? = some ';' := by
  have hthree : ∀ entry ∈ Sym.three, entry.2 ≠ .semi := by decide
  have htwo : ∀ entry ∈ Sym.two, entry.2 ≠ .semi := by decide
  have hone : ∀ entry ∈ Sym.one, entry.2 = .semi → entry.1 = [';'] := by decide
  rw [Sym.longest?] at h
  split at h
  case h_1 sym hl =>
    obtain ⟨rfl, -⟩ := Prod.mk.inj (Option.some.inj h)
    exact absurd rfl (hthree _ (mem_of_lookup hl))
  case h_2 =>
    split at h
    case h_1 sym hl =>
      obtain ⟨rfl, -⟩ := Prod.mk.inj (Option.some.inj h)
      exact absurd rfl (htwo _ (mem_of_lookup hl))
    case h_2 =>
      obtain ⟨sym, hl, h⟩ := Option.map_eq_some_iff.mp h
      obtain ⟨rfl, -⟩ := Prod.mk.inj h
      have htake : a.take 1 = [';'] := hone _ (mem_of_lookup hl) rfl
      cases a with
      | nil => cases htake
      | cons c a => exact congrArg some (List.cons.inj htake).1

/-- Of the symbols and other characters only the semicolon ends a statement. -/
theorem head_of_light {c : Char} (hx : s.symbolOrStray r c = .ok (t, s')) (hl : Light t) : r.rest.head? = some ';' := by
  rw [Scanner.symbolOrStray] at hx
  split at hx
  · rename_i sym n hs
    cases hb : s.bracket r sym with
    | error e =>
      rw [hb] at hx
      cases hx
    | ok s₁ =>
      rw [hb] at hx
      obtain ⟨rfl, -⟩ := Prod.mk.inj (Except.ok.inj hx)
      have hwall : Lexeme.isWall (.symbol sym) = true := hl _ rfl
      obtain rfl : sym = .semi := by cases sym <;> simp_all [Lexeme.isWall]
      exact head_of_semi hs
  · split at hx
    · obtain ⟨rfl, -⟩ := Prod.mk.inj (Except.ok.inj hx)
      exact absurd (hl _ rfl) Bool.false_ne_true
    · cases hx

/-- What may be read: every token, if the texts that come behind begin alike, and else the ends of rows and
statements. -/
def Readable (u v : List Char) (t : Option Token) : Prop := Apart u v ∨ Sharp u ∧ Sharp v ∧ Light t

theorem Readable.tails (h : Readable u v t) : Tails u v := h.elim Apart.tails fun h => h.1.tails h.2.1

theorem longest?_semi (a : List Char) : Sym.longest? (';' :: a) = some (.semi, 1) :=
  (Sym.longest?_twin (.here rfl : Abreast (';' :: a) [';'])).1.trans rfl

theorem inLine_suffix {fuel : Nat} (hf : s.reader.rest.length < fuel) (h : inLine fuel s blank = .ok (t, s')) :
    s'.reader.rest <:+ s.reader.rest := by
  obtain ⟨r, hr, -, hstops⟩ := inLine_stops hf h
  refine List.IsSuffix.trans ?_ hr
  cases hstops with
  | finish _ hr => exact hr ▸ List.nil_suffix
  | row _ hr => exact hr ▸ (List.tail_suffix _).trans (List.dropWhile_suffix _)
  | token hk => exact hk.rest

theorem not_light_map {x : Except (Reader × Stop) (Token × Scanner)} (hx : (x.map fun (t, s) => (some t, s)) = .ok (t, s'))
    (hl : Light t) (hnot : ∀ y, x = .ok y → ¬Light (some y.1)) : False := by
  obtain ⟨t₀, rfl, hx₀⟩ := of_map_some hx
  exact hnot _ hx₀ hl

/-- In front of what comes behind the common text nothing is read but its end. -/
theorem Along.inLine_end {fuel fuel' : Nat} (hread : Readable u v t) (h : Along u v s w) (hs : s.reader.rest = u)
    (hw : w.reader.rest = v) (hx : inLine (fuel + 1) s blank = .ok (t, s')) (hu : u <:+ s'.reader.rest) :
    ∃ t' w', inLine (fuel' + 1) w blank = .ok (t', w') ∧ t'.map (·.lexeme) = t.map (·.lexeme) ∧ Along u v s' w' := by
  rcases hread with hapart | ⟨⟨c, rest, rfl, hc⟩, -, hl⟩
  · cases hapart with
    | nil =>
      obtain ⟨r, t₀, hr, ht, heq⟩ := Scanner.inLine_end fuel blank hs
      obtain ⟨r', t₀', hr', ht', heq'⟩ := Scanner.inLine_end fuel' blank hw
      have hempty : w.brackets.isEmpty = s.brackets.isEmpty := by
        have := congrArg List.isEmpty h.brackets
        rwa [List.isEmpty_map, List.isEmpty_map] at this
      rw [heq] at hx
      rw [heq', hempty]
      split at hx
      · rw [if_pos ‹_›]
        obtain ⟨rfl, rfl⟩ := Prod.mk.inj (Except.ok.inj hx)
        refine ⟨_, _, rfl, by rw [Option.map_some, Option.map_some, ht, ht'], ⟨[], hr, hr'⟩, ?_, h.start, h.pending,
          h.levels, h.brackets⟩
        exact fun c hc => by simp [hr] at hc
      · cases hx
    | @stop c hc u v =>
      -- the token would end behind the text
      refine absurd hu.length_le (Nat.not_le.mpr ?_)
      rcases hc with rfl | rfl
      · obtain ⟨r, t₀, hr, -, heq⟩ := inLine_row fuel blank hs (.inl rfl)
        obtain ⟨-, rfl⟩ := Prod.mk.inj (Except.ok.inj (heq.symm.trans hx))
        dsimp only
        rw [hr, hs]
        exact Nat.lt_succ_self _
      · have hother : Other ';' u := ⟨by decide, by decide, by decide, by simp, by decide, by decide⟩
        have hrest : (s.reader.settle false).rest = ';' :: u := (Reader.rest_settle _ _).trans hs
        rw [inLine_symbol hs hother, Scanner.symbolOrStray, hrest, longest?_semi] at hx
        obtain ⟨-, rfl⟩ := Prod.mk.inj (Except.ok.inj hx)
        show ((s.reader.settle false).skipMany 1).rest.length < _
        rw [Reader.rest_skipMany, hrest]
        exact Nat.lt_succ_self _
  · simp only [List.mem_cons, not_or] at hc
    rcases glance c rest with hg | hg | hg | hg | hg | rfl | hg
    · exact absurd hg (by simp [hc])
    · exact absurd hg (by simp [hc])
    · exact (not_light_map ((inLine_word hs hg).symm.trans hx) hl fun _ h => not_light (.inl h)).elim
    · exact (not_light_map ((inLine_number hs hg).symm.trans hx) hl fun _ h => not_light (.inr (.inl h))).elim
    · exact (not_light_map ((inLine_quote hs hg).symm.trans hx) hl fun _ h => not_light (.inr (.inr ⟨_, h⟩))).elim
    · exact absurd rfl hc.2.2.2.1
    · rw [inLine_symbol hs hg] at hx
      have hhead := head_of_light hx hl
      rw [Reader.rest_settle, hs] at hhead
      exact absurd (Option.some.inj hhead) hc.2.2.2.2.2.2.1

/-- Inside a line both scanners read the same, if that ends in the common text. -/
theorem Along.inLine {fuel fuel' : Nat} (hread : Readable u v t) (h : Along u v s w) (hf : s.reader.rest.length < fuel)
    (hf' : w.reader.rest.length < fuel') (hx : Scanner.inLine fuel s blank = .ok (t, s')) (hu : u <:+ s'.reader.rest) :
    ∃ t' w', Scanner.inLine fuel' w blank = .ok (t', w') ∧ t'.map (·.lexeme) = t.map (·.lexeme) ∧ Along u v s' w' := by
  induction fuel generalizing s w fuel' with
  | zero => exact absurd hf (Nat.not_lt_zero _)
  | succ fuel ih =>
    obtain ⟨fuel', rfl⟩ : ∃ n, fuel' = n + 1 := ⟨fuel' - 1, by omega⟩
    obtain ⟨y, hs, hw⟩ := h.rest
    cases y with
    | nil => exact h.inLine_end hread hs hw hx hu
    | cons d y =>
      have hne : d :: y ++ u ≠ [] := List.cons_ne_nil _ _
      have hended : Ended (d :: y ++ u) := hs ▸ h.ended
      have hsettled : Along u v { s with reader := s.reader.settle false } { w with reader := w.reader.settle false } :=
        ⟨⟨d :: y, (Reader.rest_settle _ _).trans hs, (Reader.rest_settle _ _).trans hw⟩,
          by simpa using h.ended, h.start, h.pending, h.levels, h.brackets⟩
      have hne' : (s.reader.settle false).rest ≠ [] := by rw [Reader.rest_settle, hs]; exact hne
      -- a token that is read in both texts
      have htoken {x x' : Except (Reader × Stop) (Token × Scanner)}
          (hx : (x.map fun (t, s) => (some t, s)) = .ok (t, s'))
          (hreads : ∀ y, x = .ok y → u <:+ y.2.reader.rest → ∃ y', x' = .ok y' ∧ ReadAlong u v y y') :
          ∃ t' w', (x'.map fun (t, s) => (some t, s)) = .ok (t', w') ∧ t'.map (·.lexeme) = t.map (·.lexeme) ∧
            Along u v s' w' := by
        obtain ⟨t₀, rfl, hx₀⟩ := of_map_some hx
        obtain ⟨y', rfl, hlexeme, halong⟩ := hreads _ hx₀ hu
        exact ⟨_, _, rfl, congrArg some hlexeme, halong⟩
      rcases glance d (y ++ u) with hg | hg | hg | hg | hg | rfl | hg
      · -- a blank
        obtain ⟨r, hr, heq⟩ := inLine_blank fuel blank hs hg
        obtain ⟨r', hr', heq'⟩ := inLine_blank fuel' blank hw hg
        rw [heq] at hx
        rw [heq']
        refine ih (s := { s with reader := r }) (w := { w with reader := r' }) ⟨⟨y, hr, hr'⟩, ?_, h.start, h.pending,
          h.levels, h.brackets⟩ ?_ ?_ hx
        · show Ended r.rest
          rw [hr]
          exact Ended.suffix (a := [d]) hended
        · rw [hs] at hf
          exact hr ▸ Nat.lt_of_succ_lt_succ hf
        · rw [hw] at hf'
          exact hr' ▸ Nat.lt_of_succ_lt_succ hf'
      · -- the end of the row
        obtain ⟨r, t₀, hr, ht, heq⟩ := inLine_row fuel blank hs hg
        obtain ⟨r', t₀', hr', ht', heq'⟩ := inLine_row fuel' blank hw hg
        obtain ⟨rfl, rfl⟩ := Prod.mk.inj (Except.ok.inj (heq.symm.trans hx))
        have hu : u <:+ r.rest := hu
        rw [hr, hs] at hu
        obtain ⟨y₁, hy₁, hy₁'⟩ := row_along hread.tails.nil hended hne hu
        have hempty : w.brackets.isEmpty = s.brackets.isEmpty := by
          have := congrArg List.isEmpty h.brackets
          rwa [List.isEmpty_map, List.isEmpty_map] at this
        rw [heq', hempty]
        refine ⟨_, _, rfl, ?_, ⟨y₁, ?_, ?_⟩, ?_, rfl, h.pending, h.levels, h.brackets⟩
        · split
          · rfl
          · rw [Option.map_some, Option.map_some, ht, ht']
        · exact hr.trans (hs ▸ hy₁)
        · exact hr'.trans (hw ▸ hy₁')
        · show Ended r.rest
          rw [hr]
          obtain ⟨front, hfront⟩ := (List.tail_suffix _).trans (List.dropWhile_suffix (l := s.reader.rest) (· ≠ '\n'))
          exact Ended.suffix (hfront ▸ h.ended)
      · -- a word
        rcases hread with hapart | ⟨-, -, hl⟩
        · rw [inLine_word hs hg] at hx
          rw [inLine_word hw hg]
          exact htoken hx fun _ hx hu => hsettled.word hapart hne' hx hu
        · exact (not_light_map ((inLine_word hs hg).symm.trans hx) hl fun _ h => not_light (.inl h)).elim
      · -- a number, for which one more character is looked at
        rcases hread with hapart | ⟨-, -, hl⟩
        · have habreast := hapart.abreast hended hne
          rw [inLine_number hs hg] at hx
          rw [inLine_number hw (numberAhead_eq habreast ▸ hg)]
          exact htoken hx fun _ hx hu => hsettled.number hapart hne' hx hu
        · exact (not_light_map ((inLine_number hs hg).symm.trans hx) hl fun _ h => not_light (.inr (.inl h))).elim
      · -- a literal without letters
        rcases hread with hapart | ⟨-, -, hl⟩
        · rw [inLine_quote hs hg] at hx
          rw [inLine_quote hw hg]
          have hr : (s.reader.settle false).rest = [] ++ d :: (y ++ u) := (Reader.rest_settle _ _).trans hs
          exact htoken hx fun _ hx hu => hsettled.string hapart hg hr hx hu
        · exact (not_light_map ((inLine_quote hs hg).symm.trans hx) hl fun _ h => not_light (.inr (.inr ⟨_, h⟩))).elim
      · -- a backslash
        have hpassed {r : Reader} {rest : List Char} (h : r.rest = '\\' :: rest) :
            ((r.settle false).skip true).rest = rest := by
          rw [Reader.rest_skip, Reader.rest_settle, h, List.tail_cons]
        rw [inLine_backslash hs] at hx
        rw [inLine_backslash hw]
        cases hc : continueLine ((s.reader.settle false).skip true) true with
        | error e =>
          rw [hc] at hx
          cases hx
        | ok r =>
          rw [hc] at hx
          have hlen : (y ++ u).length = r.rest.length + 1 :=
            congrArg List.length ((hpassed hs).symm.trans (continueLine_rest hc).1)
          have hfuel : r.rest.length < fuel := by
            rw [hs] at hf
            simp only [List.cons_append, List.length_cons] at hf
            omega
          have hur := hu.trans (inLine_suffix (s := { s with reader := r }) hfuel hx)
          obtain ⟨y₁, r', rfl, hr, hr', hc'⟩ := continueLine_along hread.tails.nil (hpassed hs) (hpassed hw) hc hur
          rw [hc']
          refine ih (s := { s with reader := r }) (w := { w with reader := r' }) ⟨⟨y₁, hr, hr'⟩, ?_, h.start, h.pending,
            h.levels, h.brackets⟩ hfuel ?_ hx
          · show Ended r.rest
            rw [hr]
            exact Ended.suffix (a := ['\\', '\n']) hended
          · show r'.rest.length < fuel'
            rw [hw] at hf'
            rw [hr']
            simp only [List.cons_append, List.length_cons] at hf'
            omega
      · -- a symbol, or nothing that a token begins with
        rw [inLine_symbol hs hg] at hx
        have hd : Abreast (d :: (y ++ u)) (d :: (y ++ v)) := by
          rcases hread with hapart | ⟨-, -, hl⟩
          · exact hapart.abreast hended hne
          · have hhead := head_of_light hx hl
            rw [Reader.rest_settle, hs] at hhead
            exact .here (by rw [Option.some.inj hhead]; rfl)
        rw [inLine_symbol hw (other_of_abreast hd hg)]
        refine hsettled.symbolOrStray hread.tails.nil ?_ hx hu
        rw [Reader.rest_settle, Reader.rest_settle, hs, hw]
        exact (Sym.longest?_twin hd).1.symm

/-- The end of a row or of a statement is the last that was read. -/
theorem inLine_light {fuel : Nat} (hf : s.reader.rest.length < fuel) (he : Ended s.reader.rest) (hne : s.reader.rest ≠ [])
    (hl : Light t) (hx : Scanner.inLine fuel s blank = .ok (t, s')) :
    ∃ c, (c = '\n' ∨ c = ';') ∧ c :: s'.reader.rest <:+ s.reader.rest := by
  induction fuel generalizing s with
  | zero => exact absurd hf (Nat.not_lt_zero _)
  | succ fuel ih =>
    obtain ⟨c, rest, hs⟩ := List.exists_cons_of_ne_nil hne
    rcases glance c rest with hg | hg | hg | hg | hg | rfl | hg
    · obtain ⟨r, hr, heq⟩ := inLine_blank fuel blank hs hg
      rw [hs] at he hf ⊢
      have hcn : c ≠ '\n' := by rcases hg with rfl | rfl | rfl <;> decide
      obtain ⟨d, hd, hsuffix⟩ := ih (s := { s with reader := r }) (hr ▸ Nat.lt_of_succ_lt_succ hf)
        (hr ▸ he.suffix (a := [c])) (hr ▸ he.tail_ne_nil hcn) (heq ▸ hx)
      exact ⟨d, hd, hsuffix.trans (hr ▸ List.suffix_cons c rest)⟩
    · obtain ⟨r, t₀, hr, -, heq⟩ := inLine_row fuel blank hs hg
      obtain ⟨-, rfl⟩ := Prod.mk.inj (Except.ok.inj (heq.symm.trans hx))
      refine ⟨'\n', .inl rfl, ?_⟩
      show '\n' :: r.rest <:+ _
      have hsuffix := List.dropWhile_suffix (l := s.reader.rest) (· ≠ '\n')
      cases hd : s.reader.rest.dropWhile (· ≠ '\n') with
      | nil => exact absurd (List.dropWhile_eq_nil_iff.mp hd _ (he.mem hne)) (by decide)
      | cons d rest' =>
        have hhead := List.head?_dropWhile_not (· ≠ '\n') s.reader.rest
        rw [hd] at hhead hsuffix hr
        obtain rfl : d = '\n' := by simpa using hhead
        rwa [hr]
    · exact (not_light_map ((inLine_word hs hg).symm.trans hx) hl fun _ h => not_light (.inl h)).elim
    · exact (not_light_map ((inLine_number hs hg).symm.trans hx) hl fun _ h =>
        not_light (.inr (.inl h))).elim
    · exact (not_light_map ((inLine_quote hs hg).symm.trans hx) hl fun _ h => not_light (.inr (.inr ⟨_, h⟩))).elim
    · rw [inLine_backslash hs] at hx
      cases hc : continueLine ((s.reader.settle false).skip true) true with
      | error e =>
        rw [hc] at hx
        cases hx
      | ok r =>
        rw [hc] at hx
        have hpassed : ((s.reader.settle false).skip true).rest = rest := by
          rw [Reader.rest_skip, Reader.rest_settle, hs, List.tail_cons]
        obtain ⟨hrest, hr⟩ := continueLine_rest hc
        rw [hpassed] at hrest
        rw [hs, hrest] at he hf ⊢
        simp only [List.length_cons] at hf
        obtain ⟨d, hd, hsuffix⟩ := ih (s := { s with reader := r }) (show r.rest.length < fuel by omega)
          (he.suffix (a := ['\\', '\n'])) hr hx
        exact ⟨d, hd, hsuffix.trans (List.suffix_append ['\\', '\n'] r.rest)⟩
    · rw [inLine_symbol hs hg] at hx
      have hhead := head_of_light hx hl
      rw [Reader.rest_settle, hs] at hhead
      obtain rfl : c = ';' := Option.some.inj hhead
      have hrest : (s.reader.settle false).rest = ';' :: rest := (Reader.rest_settle _ _).trans hs
      rw [Scanner.symbolOrStray, hrest, longest?_semi] at hx
      obtain ⟨-, rfl⟩ := Prod.mk.inj (Except.ok.inj hx)
      refine ⟨';', .inr rfl, ?_⟩
      show ';' :: ((s.reader.settle false).skipMany 1).rest <:+ _
      rw [Reader.rest_skipMany, hrest, hs]
      exact List.suffix_refl _

end InLine

end Evalbox
