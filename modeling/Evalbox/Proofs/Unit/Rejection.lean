import Evalbox.Compile.Findings
import Evalbox.Proofs.Lang.Grammar
import Evalbox.Proofs.Unit.Header
import Evalbox.Proofs.Unit.Trailing

/-!
# Faults that indenting does not repair

The scanner of a unit trails that of its snippet, so that it comes to the faults of the snippet's tokens too, if it does
not halt before (`Faults.trails`). Faults in the layout of a snippet are another matter: inside a method an indented
line is in its place (`indented_snippet_repaired`).
-/

namespace Evalbox

open Text Lang Scanner

variable {tail : List Char} {strict : Prop}

/-- Where the text is used up, the padded text holds nothing but the end of a row. -/
theorem Trails.idle {s w : Scanner} (h : Trails tail strict s w) (hrest : s.reader.rest = []) :
    ∀ c ∈ w.reader.rest, c = ' ' ∨ c = '\n' := by
  obtain ⟨k, p, hw, hp, -⟩ := h.texts
  rw [hrest] at hp
  obtain rfl := hp.text.eq_tail
  intro c hc
  rw [hw] at hc
  rcases List.mem_append.mp hc with hc | hc
  · exact .inl (List.eq_of_mem_replicate hc)
  · rcases hp.tail_eq with h | h <;> rw [h] at hc
    · cases hc
    · exact .inr (List.mem_singleton.mp hc)

theorem eq_finish_of_padded {l : Lexeme} (h : paddedLexeme l = .finish) : l = .finish := by
  cases l with
  | text => cases h
  | _ => exact h

/-- What is still to be handed over does not matter for what a scanner trails. -/
theorem Trails.pending {s w : Scanner} (h : Trails tail strict s w) (m n : Int) :
    Trails tail strict { s with pending := m } { w with pending := n } := ⟨h.texts, h.start, h.brackets, h.inside⟩

namespace Lang.Scanner

section EndOfText

variable {s s' : Scanner} {t : Option Token} {blank : Bool}

/-- Inside brackets the scanner passes rows that hold nothing. -/
theorem inLine_idle {fuel : Nat} (hb : s.brackets ≠ []) (hidle : ∀ c ∈ s.reader.rest, c = ' ' ∨ c = '\n')
    (hf : s.reader.rest.length < fuel) (h : inLine fuel s blank = .ok (t, s')) :
    t = none ∧ s'.brackets = s.brackets ∧ s'.reader.rest <:+ s.reader.rest := by
  induction fuel generalizing s with
  | zero => exact absurd hf (Nat.not_lt_zero _)
  | succ fuel ih =>
    have hempty : s.brackets.isEmpty = false := by simpa using hb
    cases hs : s.reader.rest with
    | nil =>
      obtain ⟨r, u, -, -, heq⟩ := inLine_end fuel blank hs
      rw [heq, if_neg (by simp [hempty])] at h
      cases h
    | cons c rest =>
      rw [hs] at hidle hf
      rcases hidle c List.mem_cons_self with rfl | rfl
      · obtain ⟨r, rfl, heq⟩ := inLine_blank fuel blank hs (.inl rfl)
        obtain ⟨ht, hb', hsuffix⟩ := ih (s := { s with reader := r }) hb
          (fun d hd => hidle d (List.mem_cons_of_mem _ hd)) (Nat.lt_of_succ_lt_succ hf) (heq ▸ h)
        exact ⟨ht, hb', hsuffix.trans (List.suffix_cons ' ' r.rest)⟩
      · obtain ⟨r, u, hr, -, heq⟩ := inLine_row fuel blank hs (.inl rfl)
        obtain ⟨rfl, rfl⟩ := Prod.mk.inj (Except.ok.inj (heq.symm.trans h))
        refine ⟨by simp [hempty], rfl, ?_⟩
        dsimp only
        rw [hr, hs]
        exact (List.tail_suffix _).trans (List.dropWhile_suffix _)

/-- A bracket that is open where nothing but empty rows are left is not closed. -/
theorem not_ends_of_idle (hb : s.brackets ≠ []) (hidle : ∀ c ∈ s.reader.rest, c = ' ' ∨ c = '\n') : ¬Ends s := by
  intro he
  induction he with
  | finish h ht =>
    obtain ⟨s₁, blank, hbegin, ⟨n, u, hu, hfin, -⟩ | ⟨-, h⟩⟩ := step_cases h
    · exact hfin (Option.some.inj hu ▸ ht)
    · obtain ⟨hsuffix, -, hbrackets, -⟩ := begin_frame hbegin
      obtain ⟨hnone, -⟩ := inLine_idle (hbrackets ▸ hb) (fun c hc => hidle c (hsuffix.subset hc)) (Nat.lt_succ_self _) h
      cases hnone
  | on h he ih =>
    obtain ⟨s₁, blank, hbegin, hstep⟩ := step_cases h
    obtain ⟨hsuffix, -, hbrackets, -⟩ := begin_frame hbegin
    have hidle₁ : ∀ c ∈ s₁.reader.rest, c = ' ' ∨ c = '\n' := fun c hc => hidle c (hsuffix.subset hc)
    rcases hstep with ⟨n, u, -, -, -, rfl⟩ | ⟨-, h⟩
    · exact ih (hbrackets ▸ hb) hidle₁
    · obtain ⟨-, hbrackets', hsuffix'⟩ := inLine_idle (hbrackets ▸ hb) hidle₁ (Nat.lt_succ_self _) h
      exact ih (hbrackets' ▸ hbrackets ▸ hb) fun c hc => hidle₁ c (hsuffix'.subset hc)

/-- At the end of the text only an open bracket is a fault. -/
theorem Faults.open_bracket (hf : Faults s) (hrest : s.reader.rest = []) : s.brackets ≠ [] := by
  have hnil {s s₁ : Scanner} {blank : Bool} (hrest : s.reader.rest = []) (hb : begin s = .ok (s₁, blank)) :
      s₁.reader.rest = [] := List.suffix_nil.mp (hrest ▸ (begin_frame hb).1)
  induction hf with
  | @fault s r stop h hl =>
    rcases step_error h with hb | ⟨s₁, blank, hb, -, hin⟩
    · cases hs : s.lineStart with
      | false => cases (begin_inside hs).symm.trans hb
      | true =>
        have hstop : ∀ c rest, s.reader.rest = c :: rest → c ≠ ' ' ∧ c ≠ '\t' ∧ c ≠ '\x0c' ∧ c ≠ '\\' :=
          fun c rest h => nomatch hrest.symm.trans h
        obtain ⟨r₁, -, heq⟩ := margin_stop s.reader.rest.length 0 0 none hstop
        rw [begin_margin hs, heq] at hb
        exact absurd (hl s) (behindMargin_error hb)
    · obtain ⟨r₁, u, -, -, heq⟩ := inLine_end s₁.reader.rest.length blank (hnil hrest hb)
      rw [heq] at hin
      rw [← (begin_frame hb).2.2.1]
      rintro hbrackets
      rw [hbrackets] at hin
      cases hin
  | on h ht hf ih =>
    obtain ⟨s₁, blank, hb, ⟨n, u, -, -, -, rfl⟩ | ⟨-, hin⟩⟩ := step_cases h
    · rw [← (begin_frame hb).2.2.1]
      have hrest₁ : s₁.reader.rest = [] := hnil hrest hb
      exact ih hrest₁
    · obtain ⟨r₁, u, -, hu, heq⟩ := inLine_end s₁.reader.rest.length blank (hnil hrest hb)
      rw [heq] at hin
      split at hin
      · obtain ⟨rfl, -⟩ := Prod.mk.inj (Except.ok.inj hin)
        exact absurd hu (ht u rfl)
      · cases hin

end EndOfText

section Trailing

variable {s s₁ w w₁ : Scanner}

/-- A row without code says nothing about the levels. -/
theorem Settled.pending_of_blank (hs : Settled s) (hb : begin s = .ok (s₁, true)) : s₁.pending = 0 := by
  have hstart : s.lineStart = true := by
    cases h : s.lineStart with
    | false => cases (begin_inside h).symm.trans hb
    | true => rfl
  exact ((begin_frame hb).2.2.2 rfl).1.trans (hs hstart)

/-- A scanner that reads to the end of its text begins the row at hand and reads in it, whatever indents and dedents it
hands over in between. -/
theorem Ends.row (he : Ends w) (hw : Settled w) : ∃ w₁ blank t w', begin w = .ok (w₁, blank) ∧
    inLine (w₁.reader.rest.length + 1) { w₁ with pending := 0 } blank = .ok (t, w') ∧
    ((∃ u, t = some u ∧ u.lexeme = .finish) ∨ Ends w') ∧ (blank = false → Ends { w₁ with pending := 0 }) := by
  obtain ⟨t, w', hstep, hend⟩ := he.exists_step
  obtain ⟨w₁, blank, hb, hcases⟩ := step_cases hstep
  cases blank with
  | true =>
    have hp := hw.pending_of_blank hb
    have heq : { w₁ with pending := 0 } = w₁ := by rw [← hp]
    rcases hcases with ⟨n, u, -, -, hne, -⟩ | ⟨-, hin⟩
    · exact absurd hp hne
    · exact ⟨w₁, true, t, w', hb, by rwa [heq], hend, fun h => nomatch h⟩
  | false =>
    have he₀ := (he.of_begin hb).drain (begin_frame hb).2.1
    obtain ⟨t₀, w₀, hstep₀, hend₀⟩ := he₀.exists_step
    obtain ⟨w₂, blank₂, hb₂, hcases₀⟩ := step_cases hstep₀
    obtain ⟨rfl, rfl⟩ := Prod.mk.inj (Except.ok.inj
      ((begin_inside (s := { w₁ with pending := 0 }) (begin_frame hb).2.1).symm.trans hb₂))
    rcases hcases₀ with ⟨n, u, -, -, hne, -⟩ | ⟨-, hin⟩
    · exact absurd rfl hne
    · exact ⟨w₁, false, t₀, w₀, hb, hin, hend₀, fun _ => he₀⟩

theorem Faults.trails_end (hf : Faults s) (h : Trails tail strict s w) (hrest : s.reader.rest = []) : ¬Ends w :=
  not_ends_of_idle (fun hnil => hf.open_bracket hrest (by simpa [hnil] using h.brackets.symm)) (h.idle hrest)

/-- A scanner that trails one that comes to a fault does not read to the end of its text. -/
theorem Faults.trails (hf : Faults s) (hstrict : strict) (h : Trails tail strict s w) (hs : Settled s)
    (hw : Settled w) : ¬Ends w := by
  -- the induction is on how the fault is come to
  induction hf generalizing w with
  | @fault s r stop hstep hl =>
    by_cases hne : s.reader.rest = []
    · exact (Faults.fault hstep hl).trails_end h hne
    intro he
    obtain ⟨w₁, blank', t', w', hbw, hin', hend, -⟩ := he.row hw
    rcases step_error hstep with hb | ⟨s₁, blank, hb, -, hin⟩
    · obtain ⟨e, hbw'⟩ := begin_fault h hne hstrict hb (hl s)
      cases hbw'.symm.trans hbw
    · obtain ⟨rfl, h₁, hstart⟩ := begin_follow h hne hb hbw
      have hagree := inLine_agree blank' (h₁.pending s₁.pending 0) hstart (Nat.lt_succ_self _)
        (Nat.lt_succ_self _)
      rw [hin, hin'] at hagree
      cases hagree with
      | lost hlost => exact hlost hstrict
  | @on s s' t hstep ht hf ih =>
    by_cases hne : s.reader.rest = []
    · exact (Faults.on hstep ht hf).trails_end h hne
    intro he
    obtain ⟨w₁, blank', t', w', hbw, hin', hend, hdrained⟩ := he.row hw
    obtain ⟨s₁, blank, hb, hcases⟩ := step_cases hstep
    obtain ⟨rfl, h₁, hstart⟩ := begin_follow h hne hb hbw
    rcases hcases with ⟨n, u, -, -, hpending, rfl⟩ | ⟨-, hin⟩
    · cases blank' with
      | true => exact hpending (hs.pending_of_blank hb)
      | false =>
        have hsettled {x : Scanner} (hx : x.lineStart = false) : Settled x := fun h => absurd h (by simp [hx])
        exact ih (h₁.pending n 0) (hsettled hstart) (hsettled (h₁.start.trans hstart)) (hdrained rfl)
    · have hagree := inLine_agree blank' (h₁.pending s₁.pending 0) hstart (Nat.lt_succ_self _)
        (Nat.lt_succ_self _)
      rw [hin, hin'] at hagree
      cases hagree with
      | ok hpass =>
        obtain ⟨hlexeme, h'⟩ := hpass
        have hsettled : Settled w' := fun _ => (inLine_frame (Nat.lt_succ_self _) hin').1
        rcases hend with ⟨u, rfl, hu⟩ | he'
        · obtain ⟨u₀, rfl, hu₀⟩ := Option.map_eq_some_iff.mp hlexeme.symm
          exact ht u₀ rfl (eq_finish_of_padded (hu₀.trans hu))
        · exact ih h' (step_settled hstep) hsettled he'

end Trailing

end Lang.Scanner

section Refused

/-- Compiling a text gives no program, and an error is reported, whatever the options. -/
def Refused (source : List Char) : Prop := ∀ resolves filename optimize flags,
  (Findings.ofSource resolves source filename optimize flags).program = none ∧
    ∀ o, ∃ m ∈ (Findings.ofSource resolves source filename optimize flags).messages o, m.severity = .error

theorem Lang.Refusal.severity_message (r : Refusal) : r.message.severity = .error := by
  cases r <;> rfl

theorem refused_of_parse {source : List Char} (h : ∀ bdfl, ∃ r, (parse source bdfl).1 = .error r) : Refused source := by
  intro resolves filename optimize flags
  obtain ⟨r, hr⟩ := h (hasFeature flags bdflFlag)
  obtain ⟨ws, hws⟩ : ∃ ws, parse source (hasFeature flags bdflFlag) = (.error r, ws) := ⟨_, Prod.ext hr rfl⟩
  have hfindings : Findings.ofSource resolves source filename optimize flags = ⟨some r, ws, [], none⟩ := by
    rw [Findings.ofSource, hws]
  rw [hfindings]
  refine ⟨rfl, fun o => ⟨r.message, ?_, r.severity_message⟩⟩
  rw [Findings.messages, List.append_assoc]
  exact List.mem_append_left _ List.mem_cons_self

end Refused

section Unit

variable {code : List Char} {name : String}

theorem not_parse_of_faults (hf : Faults (Scanner.ofText (canonical code))) (bdfl : Bool) :
    ∃ r, (parse code bdfl).1 = .error r := by
  cases h : (parse code bdfl).1 with
  | error r => exact ⟨r, rfl⟩
  | ok body =>
    obtain ⟨t, ht, hl⟩ := exists_finish_of_parse h
    obtain ⟨ls, hs, -⟩ := TokenStream.spells_of_finish ht hl
    exact absurd hs.ends hf.not_ends

end Unit

end Evalbox
