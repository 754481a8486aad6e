import Evalbox.Proofs.Lang.SameStatements
import Evalbox.Proofs.Unit.Layout

/-!
# Where the layout of a text has its tokens

Indents and dedents come behind the end of a row only, no more dedents than levels are open, and at the end of the text
none is (`orderly_of_spells`).
-/

namespace Evalbox

open Text Lang Scanner

/-- What indents, dedents and the end of a text come behind: nothing, the end of a row, or a dedent. -/
def Closed (last : Option Lexeme) : Prop := ∀ l, last = some l → l.ends = true

/-- The layout of lexemes that come behind the lexeme `last`, with `depth` open levels. -/
def Orderly : Option Lexeme → Nat → List Lexeme → Prop
  | last, depth, [] => depth = 0 ∧ Closed last
  | last, depth, l :: ls =>
    (l = .dedent → 0 < depth) ∧ (l.rise ≠ 0 → Closed last) ∧ Orderly (some l) (deepened depth l) ls

theorem Lang.Lexeme.rise_of_plain {l : Lexeme} (h : Plain l) : l.rise = 0 := by
  cases l with
  | indent => exact absurd rfl h.2.1
  | dedent => exact absurd rfl h.2.2
  | _ => rfl

section Texts

/-- Every text can be padded. -/
theorem exists_padded (a : List Char) : ∃ b, Padded [] a b := by
  induction a with
  | nil => exact ⟨[], .nil⟩
  | cons c a ih =>
    obtain ⟨b, hb⟩ := ih
    cases hc : isDisplayBreak c with
    | false => exact ⟨_, .keep hc hb⟩
    | true =>
      by_cases ha : a = []
      · exact ⟨_, .last hc (.inl ha) hb⟩
      · exact ⟨_, .margin hc ha hb⟩

theorem exists_beside {a : List Char} (h : Ended a) : ∃ b, Beside [] True a b := by
  obtain ⟨b, hb⟩ := exists_padded a
  exact ⟨b, hb, .inl rfl, h, fun _ h => absurd rfl h⟩

variable {s s₁ s' : Scanner} {blank : Bool}

/-- The end of the last row is not read inside it. -/
theorem inLine_inside {t : Option Token} (hs : s.lineStart = false) (hne : s.reader.rest ≠ []) (he : Ended s.reader.rest)
    (h : inLine (s.reader.rest.length + 1) s blank = .ok (t, s')) :
    (s'.lineStart = false → s'.reader.rest ≠ []) ∧ Ended s'.reader.rest := by
  obtain ⟨b, hb⟩ := exists_beside he
  have htrails : Trails [] True s { s with reader := { s.reader with rest := b } } :=
    ⟨⟨0, b, rfl, hb, fun h => absurd h (by simp [hs])⟩, rfl, rfl, fun _ => hne⟩
  have hagree := inLine_agree blank htrails hs (Nat.lt_succ_self _) (Nat.lt_succ_self _)
  rw [h] at hagree
  generalize inLine _ _ blank = y at hagree
  cases hagree with
  | ok hpass =>
    obtain ⟨-, ⟨k, p, -, hp, -⟩, -, -, hinside⟩ := hpass
    exact ⟨hinside, hp.ended⟩

/-- The margin of a row does not reach beyond it. -/
theorem begin_inside_ne (hne : s.reader.rest ≠ []) (he : Ended s.reader.rest)
    (h : Scanner.begin s = .ok (s₁, blank)) : s₁.reader.rest ≠ [] ∧ Ended s₁.reader.rest := by
  obtain ⟨front, hfront⟩ := (begin_frame h).1
  refine ⟨?_, Ended.suffix (hfront ▸ he)⟩
  cases hstart : s.lineStart with
  | false =>
    obtain ⟨rfl, -⟩ := Prod.mk.inj (Except.ok.inj ((begin_inside hstart).symm.trans h))
    exact hne
  | true =>
    obtain ⟨b, hb⟩ := exists_beside he
    let r' : Reader := { s.reader with rest := b }
    have hr' : r'.rest = List.replicate 0 ' ' ++ b := rfl
    have hagree := margin_agree 0 0 0 0 none none hb hne hr' (Nat.lt_succ_self _) (Nat.lt_succ_self _)
    rw [begin_margin hstart] at h
    generalize margin (s.reader.rest.length + 1) s.reader 0 0 none = x at hagree h
    generalize margin _ _ 0 0 none = y at hagree
    cases hagree with
    | error => cases h
    | lost => cases h
    | ok hxy =>
      rw [(behindMargin_ok h).reader]
      exact hxy.2.1

end Texts

/-- What is known of a scanner behind the lexeme `last`, with `depth` levels open. -/
structure Laid (last : Option Lexeme) (depth : Nat) (s : Scanner) : Prop where
  ended : Ended s.reader.rest
  settled : Settled s
  levels : ∀ m ∈ s.levels, 0 < m.1
  depth : (depth : Int) = s.levels.length - s.pending ∧ s.pending ≤ 0
  row : s.lineStart = true → s.brackets = [] → Closed last
  dedents : s.pending < 0 → Closed last
  spent : s.lineStart = false → s.reader.rest = [] → s.brackets = [] → Closed last ∧ s.levels = []

namespace Laid

variable {last : Option Lexeme} {depth : Nat} {s s₁ s' : Scanner} {t : Option Token} {blank : Bool}

theorem ofText {text : List Char} (h : Ended text) : Laid none 0 (Scanner.ofText text) where
  ended := h
  settled _ := rfl
  levels := List.forall_mem_nil _
  depth := ⟨rfl, Int.le_refl 0⟩
  row _ _ := fun _ h => nomatch h
  dedents h := absurd h (Int.lt_irrefl 0)
  spent h := nomatch h

/-- What a step leaves, and what it can hand over. -/
structure Stepped (last : Option Lexeme) (depth : Nat) (t : Option Token) (s' : Scanner) : Prop where
  dedent : ∀ u, t = some u → u.lexeme = .dedent → 0 < depth
  closed : ∀ u, t = some u → u.lexeme.rise ≠ 0 → Closed last
  finish : ∀ u, t = some u → u.lexeme = .finish → depth = 0 ∧ Closed last
  laid : (∀ u, t = some u → u.lexeme ≠ .finish) →
    Laid ((t.map (·.lexeme)).or last) ((t.map (deepened depth ·.lexeme)).getD depth) s'

/-- Behind the start of a row: whether it is the last one, and what may be handed over. -/
structure Begun (last : Option Lexeme) (depth : Nat) (s : Scanner) (blank : Bool) : Prop where
  ended : Ended s.reader.rest
  inside : s.lineStart = false
  levels : ∀ m ∈ s.levels, 0 < m.1
  depth : (depth : Int) = s.levels.length - s.pending ∧ s.pending ≤ 1
  moved : s.pending ≠ 0 → Closed last
  indent : 0 < s.pending → s.reader.rest ≠ []
  blank : blank = true → s.brackets = [] → Closed last
  spent : s.reader.rest = [] → s.brackets = [] → Closed last ∧ s.levels = []

theorem begun (h : Laid last depth s) (hb : Scanner.begin s = .ok (s₁, blank)) : Laid.Begun last depth s₁ blank := by
  obtain ⟨hsuffix, hinside, hbrackets, -⟩ := begin_frame hb
  cases hstart : s.lineStart with
  | false =>
    obtain ⟨rfl, rfl⟩ := Prod.mk.inj (Except.ok.inj ((begin_inside hstart).symm.trans hb))
    have hpending := h.depth.2
    refine ⟨h.ended, hstart, h.levels, ⟨h.depth.1, by omega⟩, fun hne => h.dedents (by omega), fun hpos => by omega,
      fun hblank => (nomatch hblank), fun hrest hnil => h.spent hstart hrest hnil⟩
  | true =>
    have hp := h.settled hstart
    have hdepth := h.depth.1
    by_cases hend : s.reader.rest = [] ∧ s.brackets = []
    · obtain ⟨hrest, hnil⟩ := hend
      obtain ⟨r, hr, heq⟩ := begin_used_up hstart hnil h.levels hrest
      obtain ⟨rfl, rfl⟩ := Prod.mk.inj (Except.ok.inj (heq.symm.trans hb))
      have hclosed := h.row hstart hnil
      exact ⟨fun c hc => by simp [hr] at hc, rfl, List.forall_mem_nil _,
        ⟨by simp only [List.length_nil]; omega, by dsimp only; omega⟩, fun _ => hclosed,
        fun hpos => by dsimp only at hpos; omega, fun h => (nomatch h), fun _ _ => ⟨hclosed, rfl⟩⟩
    · have hopen : s.brackets = [] → s₁.reader.rest ≠ [] := fun hnil =>
        (begin_inside_ne (fun hrest => hend ⟨hrest, hnil⟩) h.ended hb).1
      obtain ⟨front, hfront⟩ := hsuffix
      have hended : Ended s₁.reader.rest := Ended.suffix (hfront ▸ h.ended)
      rw [begin_margin hstart] at hb
      split at hb
      · cases hb
      · rcases behindMargin_cases hb with ⟨-, rfl, -⟩ | ⟨-, hnil, rfl, hr⟩
        · exact ⟨hended, rfl, h.levels, ⟨hdepth, by dsimp only; omega⟩, fun hne => absurd hp hne,
            fun hpos => by dsimp only at hpos; omega, fun _ hnil => h.row hstart hnil,
            fun hrest hnil => absurd hrest (hopen hnil)⟩
        · have hclosed := h.row hstart hnil
          obtain ⟨hd, hp'⟩ := reindent_depth hr
          dsimp only at hd hp'
          exact ⟨hended, hinside, reindent_positive hr h.levels, ⟨by omega, by omega⟩, fun _ => hclosed,
            fun _ => hopen hnil, fun h => (nomatch h), fun hrest _ => absurd hrest (hopen hnil)⟩

/-- The steps of a scanner keep what is known of it. -/
theorem step (h : Laid last depth s) (hs : Scanner.step s = .ok (t, s')) : Laid.Stepped last depth t s' := by
  rw [Scanner.step] at hs
  split at hs
  · cases hs
  case _ s₁ blank hb =>
  have h₁ := h.begun hb
  obtain ⟨hdepth, hone⟩ := h₁.depth
  have hinside {p : Prop} {s : Scanner} (heq : s.lineStart = s₁.lineStart) (hs : s.lineStart = true) : p :=
    absurd (heq.symm.trans hs) (by simp [h₁.inside])
  rw [emit] at hs
  split at hs
  case isTrue hneg =>
    -- a dedent
    obtain ⟨rfl, rfl⟩ := Prod.mk.inj (Except.ok.inj hs)
    have hclosed := h₁.moved (by omega)
    refine ⟨fun _ _ _ => by omega, fun _ _ _ => hclosed, fun u hu hfin => ?_, fun _ => ?_⟩
    · cases Option.some.inj hu
      cases hfin
    · have hdedent : Closed (some .dedent) := by rintro l ⟨⟩; rfl
      have hd : ((depth - 1 : Nat) : Int) = s₁.levels.length - (s₁.pending + 1) := by omega
      exact ⟨h₁.ended, hinside rfl, h₁.levels, ⟨hd, by dsimp only; omega⟩, hinside rfl, fun _ => hdedent,
        fun _ hrest hnil => ⟨hdedent, (h₁.spent hrest hnil).2⟩⟩
  case isFalse hneg =>
    split at hs
    case isTrue hpos =>
      -- an indent
      obtain ⟨rfl, rfl⟩ := Prod.mk.inj (Except.ok.inj hs)
      have hclosed := h₁.moved (by omega)
      refine ⟨fun u hu hl => ?_, fun _ _ _ => hclosed, fun u hu hl => ?_, fun _ => ?_⟩
      · cases Option.some.inj hu
        cases hl
      · cases Option.some.inj hu
        cases hl
      · have hd : ((depth + 1 : Nat) : Int) = s₁.levels.length - (s₁.pending - 1) := by omega
        exact ⟨h₁.ended, hinside rfl, h₁.levels, ⟨hd, by dsimp only; omega⟩, hinside rfl,
          fun hp => by dsimp only at hp; omega, fun _ hrest => absurd hrest (h₁.indent hpos)⟩
    case isFalse hpos =>
      have hp : s₁.pending = 0 := by omega
      obtain ⟨hp', hl'⟩ := inLine_frame (Nat.lt_succ_self _) hs
      by_cases hrest : s₁.reader.rest = []
      · -- the end of the text
        obtain ⟨r, u, hr, hu, heq⟩ := inLine_end s₁.reader.rest.length blank hrest
        rw [heq] at hs
        split at hs
        case isFalse => cases hs
        case isTrue hb =>
          obtain ⟨rfl, rfl⟩ := Prod.mk.inj (Except.ok.inj hs)
          obtain ⟨hclosed, hlevels⟩ := h₁.spent hrest (by simpa using hb)
          rw [hlevels, hp] at hdepth
          refine ⟨fun v hv hl => ?_, fun _ _ _ => hclosed, fun _ _ _ => ⟨by simpa using hdepth, hclosed⟩,
            fun hfin => absurd hu (hfin u rfl)⟩
          cases hv
          rw [hu] at hl
          cases hl
      · obtain ⟨hinside', hended⟩ := inLine_inside h₁.inside hrest h₁.ended hs
        obtain ⟨r, -, hlast, hstops⟩ := inLine_stops (Nat.lt_succ_self _) hs
        have hd : (depth : Int) = s'.levels.length - s'.pending := by rw [hl', hp', hp]; omega
        cases hstops with
        | finish hr =>
          have hlast := hlast (h₁.ended.getLast? hrest)
          rw [show r.rest = [] from hr] at hlast
          cases hlast
        | @row r' u _ _ hu =>
          have hlaid {l : Option Lexeme} (hrow : s₁.brackets = [] → Closed l) :
              Laid l depth { s₁ with reader := r', lineStart := true } :=
            ⟨hended, fun _ => hp, h₁.levels, ⟨hd, Int.le_of_eq hp⟩, fun _ => hrow,
              fun hneg' => absurd hneg' hneg, fun h => by cases h⟩
          by_cases hnone : (blank || !s₁.brackets.isEmpty) = true
          · rw [if_pos hnone]
            have hno {p : Token → Prop} (u : Token) (hu : none = some u) : p u := by cases hu
            refine ⟨hno, hno, hno, fun _ => hlaid fun hnil => h₁.blank ?_ hnil⟩
            simpa [hnil] using hnone
          · rw [if_neg hnone]
            have hclosed : Closed (some .newline) := by rintro l ⟨⟩; rfl
            refine ⟨?_, ?_, ?_, fun _ => ?_⟩
            · rintro v ⟨⟩ hl
              rw [hu] at hl
              cases hl
            · rintro v ⟨⟩ hl
              rw [hu] at hl
              exact absurd rfl hl
            · rintro v ⟨⟩ hl
              rw [hu] at hl
              cases hl
            · rw [Option.map_some, Option.map_some, hu]
              exact hlaid fun _ => hclosed
        | @token u _ hk =>
          have hstart : s'.lineStart = s₁.lineStart := hk.lineStart
          refine ⟨?_, ?_, ?_, fun _ => ?_⟩
          · rintro v ⟨⟩ hl
            exact absurd hl hk.lexeme.2.2
          · rintro v ⟨⟩ hl
            exact absurd (Lexeme.rise_of_plain hk.lexeme) hl
          · rintro v ⟨⟩ hl
            exact absurd hl hk.lexeme.1
          · have hdeep : ((some u).map (deepened depth ·.lexeme)).getD depth = depth := deepened_plain hk.lexeme depth
            rw [hdeep]
            exact ⟨hended, hinside hstart, hl' ▸ h₁.levels, ⟨hd, by omega⟩, hinside hstart,
              fun hneg' => absurd (hp'.trans hp ▸ hneg') (Int.lt_irrefl 0),
              fun hs' hrest => absurd hrest (hinside' hs')⟩

end Laid

/-- What a scanner spells is in order. -/
theorem Laid.spells {last : Option Lexeme} {depth : Nat} {s : Scanner} {ls : List Lexeme} (h : Laid last depth s)
    (hs : Spells s ls) : Orderly last depth ls := by
  induction hs generalizing last depth with
  | finish hstep ht => exact (h.step hstep).finish _ rfl ht
  | pass hstep _ ih => exact ih ((h.step hstep).laid nofun)
  | @token s s' t ls hstep ht _ ih =>
    have hstepped := h.step hstep
    refine ⟨hstepped.dedent t rfl, hstepped.closed t rfl, ih (hstepped.laid fun u hu => ?_)⟩
    exact Option.some.inj hu ▸ ht

theorem orderly_of_spells {text : List Char} {ls : List Lexeme}
    (hs : Spells (Scanner.ofText (canonical text)) ls) : Orderly none 0 ls := by
  refine (Laid.ofText fun c hc => ?_).spells hs
  exact Option.some.inj (hc.symm.trans (getLast?_canonical text))

end Evalbox
