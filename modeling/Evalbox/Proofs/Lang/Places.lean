import Evalbox.Lang.Parse.Basic
import Evalbox.Proofs.Lang.Reading
import Evalbox.Proofs.Text.LineStarts
import Evalbox.Proofs.Text.Utf8

/-!
# Where tokens stand

The place of a token is counted while the text is read: a line for each line feed in front of it, and the bytes of its
own row (`Place.Behind`). What the reader counts is right at every step (`Reader.Stands`), and so is the place of every
token that is no layout (`stands_of_mem`).
-/

namespace Evalbox.Lang

open Text

/-- A place is where a text breaks off. -/
structure Place.Behind (p : Place) (front : List Char) : Prop where
  line : p.line = front.count '\n' + 1
  byte : p.byte = byteLength (openRow front)

namespace Reader

variable {text : List Char} {r : Reader}

/-- A reader stands behind what it has read: inside a line, or at the end of one whose successor is not yet begun. -/
inductive Stands (text : List Char) (r : Reader) : Prop
  | inside (front : List Char) (ht : text = front ++ r.rest) (hr : r.fresh = false) (hp : r.place.Behind front)
  | between (front : List Char) (ht : text = front ++ r.rest) (hr : r.fresh = true)
      (hl : r.place.line = front.count '\n') (ho : openRow front = [])

theorem ofText_stands (text : List Char) : Stands text (ofText text) := .between [] rfl rfl rfl rfl

/-- With a character in front of it a settled reader is inside a line. -/
theorem Stands.settled {c : Char} {rest : List Char} (h : Stands text r) (inToken : Bool) (hr : r.rest = c :: rest) :
    ∃ front, text = front ++ c :: rest ∧ (r.settle inToken).fresh = false ∧ (r.settle inToken).place.Behind front := by
  cases h with
  | inside front ht hf hp =>
    have hsettle : r.settle inToken = r := by simp [settle, hf]
    exact ⟨front, hr ▸ ht, hsettle.symm ▸ hf, hsettle.symm ▸ hp⟩
  | between front ht hf hl ho =>
    refine ⟨front, hr ▸ ht, by simp [settle, hf, hr], ?_, ?_⟩
    · simp [settle, hf, hr, hl]
    · simp [settle, hf, hr, ho, byteLength]

theorem Stands.settle (h : Stands text r) (inToken : Bool) : Stands text (r.settle inToken) := by
  cases hr : r.rest with
  | nil =>
    have hsettle : r.settle inToken = r := by simp [Reader.settle, hr]
    exact hsettle.symm ▸ h
  | cons c rest =>
    obtain ⟨front, ht, hf, hp⟩ := h.settled inToken hr
    exact .inside front (by rw [rest_settle, hr, ht]) hf hp

theorem Stands.skip (h : Stands text r) (inToken : Bool) : Stands text (r.skip inToken) := by
  cases hr : r.rest with
  | nil =>
    have hskip : r.skip inToken = r.settle inToken := by simp [Reader.skip, hr]
    exact hskip.symm ▸ h.settle inToken
  | cons c rest =>
    obtain ⟨front, ht, hf, hp⟩ := h.settled inToken hr
    have hskip : r.skip inToken = { r.settle inToken with
        rest := rest
        place := ⟨(r.settle inToken).place.line, (r.settle inToken).place.col + 1,
          (r.settle inToken).place.byte + c.utf8Size⟩
        fresh := c = '\n' } := by
      simp [Reader.skip, hr]
    have ht' : text = front ++ [c] ++ rest := by rw [ht, List.append_assoc, List.singleton_append]
    rw [hskip]
    by_cases hc : c = '\n'
    · subst hc
      refine .between (front ++ ['\n']) ht' (by simp) ?_ (openRow_feed front)
      rw [List.count_append, List.count_singleton_self]
      exact hp.line
    · refine .inside (front ++ [c]) ht' (by simpa using hc) ⟨?_, ?_⟩
      · have hcount : [c].count '\n' = 0 := List.count_eq_zero_of_not_mem (by simpa using Ne.symm hc)
        rw [List.count_append, hcount]
        exact hp.line
      · rw [openRow_concat hc, byteLength_append, ← hp.byte]
        rfl

theorem Stands.skipMany (h : Stands text r) (n : Nat) : Stands text (r.skipMany n) := by
  induction n generalizing r with
  | zero => exact h
  | succ n ih => exact ih (h.skip true)

end Reader

/-- A token that is no layout stands where its text begins. -/
def Token.Stands (text : List Char) (t : Token) : Prop := P.isLayout t.lexeme = false →
  ∃ front c rest, text = front ++ c :: rest ∧ c ≠ '\n' ∧ (P.spanOf t).start.Behind front

namespace Scanner

variable {text : List Char} {r r' : Reader} {s s' : Scanner}

theorem continueLine_stands {inToken : Bool} (hs : r.Stands text) (h : continueLine r inToken = .ok r') :
    r'.Stands text := by
  rw [continueLine] at h
  split at h
  · split at h
    · cases h
    · obtain rfl := Except.ok.inj h
      exact (hs.skip true).settle inToken
  · cases h

theorem margin_stands {fuel col alt : Nat} {kept : Option Nat} {m : Nat × Nat} (hs : r.Stands text)
    (h : margin fuel r col alt kept = .ok (r', m)) : r'.Stands text := by
  fun_induction margin fuel r col alt kept with
  | case1 =>
    obtain ⟨rfl, -⟩ := Prod.mk.inj (Except.ok.inj h)
    exact hs
  | case2 _ _ _ _ _ _ _ _ ih | case3 _ _ _ _ _ _ _ _ ih | case4 _ _ _ _ _ _ _ _ ih =>
    exact ih ((hs.settle false).skip false) h
  | case5 _ _ _ _ _ _ _ _ _ _ hr ih =>
    exact ih (continueLine_stands ((hs.settle false).skip false) hr) h
  | case6 => cases h
  | case7 | case8 =>
    obtain ⟨rfl, -⟩ := Prod.mk.inj (Except.ok.inj h)
    exact hs.settle false

theorem begin_stands {blank : Bool} (hs : s.reader.Stands text) (h : begin s = .ok (s', blank)) :
    s'.reader.Stands text := by
  cases hstart : s.lineStart with
  | false =>
    obtain ⟨rfl, -⟩ := Prod.mk.inj (Except.ok.inj ((begin_inside hstart).symm.trans h))
    exact hs
  | true =>
    rw [begin_margin hstart] at h
    split at h
    · cases h
    · case _ r m hm =>
      rw [(behindMargin_ok h).reader]
      exact margin_stands hs hm

section Token

/-! A token that begins in front of a settled reader. -/

/-- What a reader has in front of it is no line feed. -/
def Faces (text : List Char) (r : Reader) : Prop :=
  ∃ front c rest, text = front ++ c :: rest ∧ c ≠ '\n' ∧ r.place.Behind front

/-- A token that was read, and the scanner behind it. -/
def Taken (text : List Char) (x : Token × Scanner) : Prop := x.1.Stands text ∧ x.2.reader.Stands text

variable {x : Token × Scanner} (hs : r.Stands text) (hf : Faces text r)

include hs hf

theorem take_stands (s : Scanner) (lexeme : Lexeme) (n : Nat) (warning : Option String) :
    Taken text (s.take r lexeme n warning) :=
  ⟨fun _ => hf, hs.skipMany n⟩

theorem string_stands {letters : Nat} (h : s.string r letters = .ok x) : Taken text x := by
  rw [string] at h
  split at h
  · obtain rfl := Except.ok.inj h
    exact take_stands hs hf s _ _ _
  · cases h

theorem number_stands (h : s.number r = .ok x) : Taken text x := by
  rw [number] at h
  split at h
  · obtain rfl := Except.ok.inj h
    exact take_stands hs hf s _ _ _
  · cases h
  · cases h

theorem word_stands (h : s.word r = .ok x) : Taken text x := by
  rw [word_eq s r rfl] at h
  split at h
  · exact string_stands hs hf h
  · split at h
    · cases h
    · split at h
      all_goals
        obtain rfl := Except.ok.inj h
        exact take_stands hs hf s _ _ _

end Token

/-- A step inside a line: whatever it answers stands where it says, and so does the reader behind it. -/
theorem inLine_stands {fuel : Nat} {blank : Bool} {u : Option Token} (hs : s.reader.Stands text)
    (h : inLine fuel s blank = .ok (u, s')) : (∀ t, u = some t → t.Stands text) ∧ s'.reader.Stands text := by
  have hlayout {t : Token} (ht : P.isLayout t.lexeme = true) : t.Stands text := fun h => nomatch ht.symm.trans h
  have hfaces {s : Scanner} {c : Char} {rest : List Char} (hs : s.reader.Stands text)
      (hr : (s.reader.settle false).rest = c :: rest) (hc : ¬(decide (c = '\n') || decide (c = '#')) = true) :
      Faces text (s.reader.settle false) := by
    obtain ⟨front, ht, -, hp⟩ := hs.settled false ((s.reader.rest_settle false).symm.trans hr)
    exact ⟨front, c, rest, ht, fun h => hc (by simp [h]), hp⟩
  have htaken {t : Token} (ht : Taken text (t, s')) (hu : u = some t) :
      (∀ t, u = some t → t.Stands text) ∧ s'.reader.Stands text :=
    ⟨fun t' ht' => Option.some.inj (hu.symm.trans ht') ▸ ht.1, ht.2⟩
  fun_induction inLine fuel s blank with
  | case1 =>
    obtain ⟨rfl, rfl⟩ := Prod.mk.inj (Except.ok.inj h)
    exact htaken ⟨hlayout rfl, hs⟩ rfl
  | case2 =>
    obtain ⟨rfl, rfl⟩ := Prod.mk.inj (Except.ok.inj h)
    exact htaken ⟨hlayout rfl, hs.settle false⟩ rfl
  | case4 _ _ _ _ _ _ _ _ ih => exact ih ((hs.settle false).skip false) h
  | case5 =>
    obtain ⟨rfl, rfl⟩ := Prod.mk.inj (Except.ok.inj h)
    exact ⟨(fun _ ht => nomatch ht), ((hs.settle false).skipMany _).skip true⟩
  | case6 =>
    obtain ⟨rfl, rfl⟩ := Prod.mk.inj (Except.ok.inj h)
    exact htaken ⟨hlayout rfl, ((hs.settle false).skipMany _).skip true⟩ rfl
  | case7 _ _ _ _ _ _ hr _ hc =>
    obtain ⟨t, hu, ht⟩ := of_map_some h
    exact htaken (word_stands (hs.settle false) (hfaces hs hr hc) ht) hu
  | case8 _ _ _ _ _ _ hr _ hc =>
    obtain ⟨t, hu, ht⟩ := of_map_some h
    exact htaken (number_stands (hs.settle false) (hfaces hs hr hc) ht) hu
  | case9 _ _ _ _ _ _ hr _ hc =>
    obtain ⟨t, hu, ht⟩ := of_map_some h
    exact htaken (string_stands (hs.settle false) (hfaces hs hr hc) ht) hu
  | case10 _ _ _ _ _ _ hr _ _ _ _ _ _ ih =>
    exact ih (continueLine_stands ((hs.settle false).skip true) hr) h
  | case12 _ s _ _ _ _ hr _ hc _ _ _ _ sym _ _ =>
    cases hb : s.bracket (s.reader.settle false) sym with
    | error e =>
      rw [hb] at h
      cases h
    | ok s₁ =>
      rw [hb] at h
      obtain ⟨rfl, rfl⟩ := Prod.mk.inj (Except.ok.inj h)
      exact htaken (take_stands (hs.settle false) (hfaces hs hr hc) s₁ _ _ _) rfl
  | case13 _ s _ _ _ _ hr _ hc _ _ _ _ _ _ _ _ htake =>
    obtain ⟨rfl, rfl⟩ := Prod.mk.inj (Except.ok.inj h)
    exact htaken (htake ▸ take_stands (hs.settle false) (hfaces hs hr hc) s _ _ _) rfl
  | case3 | case11 | case14 => cases h

theorem step_stands {u : Option Token} (hs : s.reader.Stands text) (h : step s = .ok (u, s')) :
    (∀ t, u = some t → t.Stands text) ∧ s'.reader.Stands text := by
  have hmark {t : Token} (ht : P.isLayout t.lexeme = true) : ∀ t', some t = some t' → t'.Stands text := by
    rintro t' ⟨⟩ h
    cases ht.symm.trans h
  rw [step] at h
  split at h
  · cases h
  · case _ s₁ blank hb =>
    have hs₁ := begin_stands hs hb
    rw [emit] at h
    split at h
    · obtain ⟨rfl, rfl⟩ := Prod.mk.inj (Except.ok.inj h)
      exact ⟨hmark rfl, hs₁⟩
    · split at h
      · obtain ⟨rfl, rfl⟩ := Prod.mk.inj (Except.ok.inj h)
        exact ⟨hmark rfl, hs₁⟩
      · exact inLine_stands hs₁ h

theorem Reads.stands {ts : List Token} (h : Reads s ts s') (hs : s.reader.Stands text) :
    (∀ t ∈ ts, t.Stands text) ∧ s'.reader.Stands text := by
  induction h with
  | here => exact ⟨(fun _ ht => nomatch ht), hs⟩
  | pass h _ ih => exact ih (step_stands hs h).2
  | token h _ _ ih =>
    obtain ⟨ht, hs⟩ := step_stands hs h
    obtain ⟨hts, hs⟩ := ih hs
    exact ⟨List.forall_mem_cons.mpr ⟨ht _ rfl, hts⟩, hs⟩

end Scanner

open Scanner in
/-- Every token of a text that is no layout stands where the text in front of it ends. -/
theorem TokenStream.stands_of_mem {text : List Char} {t : Token} (ht : t ∈ (ofText text).tokens) :
    t.Stands (canonical text) := by
  obtain ⟨ts, s₁, ts', hr, htokens, ho⟩ :=
    collect_reads (2 * (canonical text).length + indentLimit + 2) (Scanner.ofText (canonical text)) #[]
  have hts := (hr.stands (Reader.ofText_stands (canonical text))).1
  have ht' : t ∈ ts' := by
    rw [ofText, htokens] at ht
    simpa using ht
  generalize (TokenStream.collect _ _ _).halt.map (·.1.rejection) = halt at ho
  cases ho with
  | @finished u s' h hfin hf =>
    rcases List.mem_append.mp ht' with hmem | hmem
    · exact hts t hmem
    · obtain rfl := List.mem_singleton.mp hmem
      intro hlayout
      rw [hfin] at hlayout
      cases hlayout
  | halted | exhausted => exact hts t ht'

end Evalbox.Lang
