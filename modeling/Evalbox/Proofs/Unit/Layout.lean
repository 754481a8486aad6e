import Evalbox.Proofs.Unit.Rejection

/-!
# The layout of indented snippets

Eight blanks in front of every display line put a block one level deeper and leave its own layout as it is: the scanner
of the unit hands over what that of the body hands over, inside an indent and two dedents (`Sheltered.spells`). This
holds for texts none of whose display lines begins with a backslash; the blanks in front of it would count for the line
that it continues.
-/

namespace Evalbox

open Text Lang Scanner

section Levels

/-- The levels of a body, inside those of its unit. -/
def sheltered (levels : List (Nat × Nat)) : List (Nat × Nat) :=
  levels.map (fun m => (m.1 + 8, m.2 + 8)) ++ [(8, 8), (4, 4)]

theorem headD_sheltered (levels : List (Nat × Nat)) :
    (sheltered levels).headD (0, 0) = ((levels.headD (0, 0)).1 + 8, (levels.headD (0, 0)).2 + 8) := by
  cases levels <;> rfl

theorem length_sheltered (levels : List (Nat × Nat)) : (sheltered levels).length = levels.length + 2 := by
  simp [sheltered]

theorem closeLevels_sheltered (col : Nat) (levels : List (Nat × Nat)) : closeLevels (col + 8) (sheltered levels) =
    ((closeLevels col levels).1, sheltered (closeLevels col levels).2) := by
  induction levels with
  | nil =>
    have hcol : ¬col + 8 < 8 := by omega
    exact if_neg hcol
  | cons m levels ih =>
    have hcons : sheltered (m :: levels) = (m.1 + 8, m.2 + 8) :: sheltered levels := rfl
    rw [hcons, closeLevels, closeLevels]
    by_cases h : col < m.1
    · rw [if_pos h, if_pos (Nat.add_lt_add_right h 8), ih]
    · rw [if_neg h, if_neg (fun h' => h (Nat.lt_of_add_lt_add_right h'))]
      rfl

theorem length_closeLevels (col : Nat) (levels : List (Nat × Nat)) :
    (closeLevels col levels).1 + (closeLevels col levels).2.length = levels.length := by
  induction levels with
  | nil => rfl
  | cons m levels ih =>
    rw [closeLevels]
    split
    · simp only [List.length_cons]
      omega
    · exact Nat.zero_add _

variable {s s' w : Scanner} {r : Reader} {col alt : Nat}

/-- As many levels are opened or closed as there are indents and dedents to be handed over. -/
theorem reindent_depth (h : s.reindent r col alt = .ok s') :
    (s'.levels.length : Int) - s'.pending = s.levels.length - s.pending ∧ s'.pending ≤ s.pending + 1 := by
  rw [reindent] at h
  dsimp only at h
  split at h
  · split at h
    · obtain rfl := Except.ok.inj h
      exact ⟨rfl, by dsimp only; omega⟩
    · cases h
  · split at h
    · split at h
      · cases h
      · split at h
        · cases h
        · obtain rfl := Except.ok.inj h
          simp only [List.length_cons]
          omega
    · have hlen := length_closeLevels col s.levels
      split at h
      · cases h
      · split at h
        · cases h
        · obtain rfl := Except.ok.inj h
          dsimp only
          omega

theorem closeLevels_suffix (col : Nat) (levels : List (Nat × Nat)) : (closeLevels col levels).2 <:+ levels := by
  induction levels with
  | nil => exact List.suffix_refl _
  | cons m levels ih =>
    rw [closeLevels]
    split
    · exact ih.trans (List.suffix_cons m levels)
    · exact List.suffix_refl _

theorem reindent_positive (h : s.reindent r col alt = .ok s') (hs : ∀ m ∈ s.levels, 0 < m.1) :
    ∀ m ∈ s'.levels, 0 < m.1 := by
  rw [reindent] at h
  dsimp only at h
  split at h
  · split at h
    · obtain rfl := Except.ok.inj h
      exact hs
    · cases h
  · split at h
    case isTrue hdeeper =>
      split at h
      · cases h
      · split at h
        · cases h
        · obtain rfl := Except.ok.inj h
          exact List.forall_mem_cons.mpr ⟨Nat.zero_lt_of_lt hdeeper, hs⟩
    case isFalse =>
      split at h
      · cases h
      · split at h
        · cases h
        · obtain rfl := Except.ok.inj h
          exact fun m hm => hs m ((closeLevels_suffix col s.levels).subset hm)

/-- Where no level is open, a row stands at the left or opens the first one. -/
theorem reindent_first (h : s.reindent r col alt = .ok s') (hl : s.levels = []) :
    (col = 0 ∧ alt = 0 ∧ s' = { s with reader := r }) ∨ s'.pending = s.pending + 1 := by
  rw [reindent, hl, List.headD_nil] at h
  dsimp only at h
  by_cases hcol : col = 0
  · rw [if_pos hcol] at h
    by_cases halt : alt = 0
    · rw [if_pos halt] at h
      exact .inl ⟨hcol, halt, by rw [← Except.ok.inj h, hl]⟩
    · rw [if_neg halt] at h
      cases h
  · rw [if_neg hcol, if_pos (Nat.pos_of_ne_zero hcol)] at h
    split at h
    · cases h
    · split at h
      · cases h
      · exact .inr (by rw [← Except.ok.inj h])

/-- A row of a body opens and closes the same levels inside a unit. -/
theorem reindent_sheltered (r' : Reader) (h : s.reindent r col alt = .ok s') (hw : w.levels = sheltered s.levels)
    (hp : w.pending = s.pending) (hdepth : s'.levels.length ≤ 97) :
    ∃ w', w.reindent r' (col + 8) (alt + 8) = .ok w' ∧ w'.levels = sheltered s'.levels ∧ w'.pending = s'.pending := by
  rw [reindent] at h ⊢
  rw [hw, headD_sheltered, closeLevels_sheltered, length_sheltered]
  dsimp only at h ⊢
  rw [headD_sheltered]
  split at h
  case isTrue htop =>
    split at h
    case isFalse => cases h
    case isTrue halt =>
      obtain rfl := Except.ok.inj h
      rw [if_pos (by omega), if_pos (by omega)]
      exact ⟨_, rfl, rfl, hp⟩
  case isFalse htop =>
    rw [if_neg (by omega)]
    split at h
    case isTrue hdeeper =>
      rw [if_pos (by omega)]
      split at h
      case isTrue => cases h
      case isFalse =>
        split at h
        case isTrue => cases h
        case isFalse halt =>
          obtain rfl := Except.ok.inj h
          have hlen : s.levels.length + 1 ≤ 97 := hdepth
          rw [if_neg (by rw [indentLimit]; omega), if_neg (by omega)]
          exact ⟨_, rfl, rfl, congrArg (· + 1) hp⟩
    case isFalse hdeeper =>
      rw [if_neg (by omega)]
      split at h
      case isTrue => cases h
      case isFalse hbase =>
        split at h
        case isTrue => cases h
        case isFalse halt =>
          obtain rfl := Except.ok.inj h
          rw [if_neg (by omega), if_neg (by omega)]
          exact ⟨_, rfl, rfl, congrArg (· - ((closeLevels col s.levels).1 : Int)) hp⟩

end Levels

section Rows

variable {tail : List Char} {strict : Prop} {s s' s₁ w : Scanner} {blank : Bool}

theorem Upright.row {a : List Char} (hn : '\n' ∈ a) (h : Upright a) :
    Upright ('\n' :: (a.dropWhile (· ≠ '\n')).tail) := by
  cases hd : a.dropWhile (· ≠ '\n') with
  | nil => exact absurd (List.dropWhile_eq_nil_iff.mp hd _ hn) (by decide)
  | cons c rest =>
    have hc := List.head?_dropWhile_not (· ≠ '\n') a
    rw [hd] at hc
    obtain rfl : c = '\n' := by simpa using hc
    have ha : a.takeWhile (· ≠ '\n') ++ '\n' :: rest = a := hd ▸ List.takeWhile_append_dropWhile
    rw [← ha] at h
    exact h.suffix

/-- A row is begun at the same place of both texts. If it holds code, its margin is eight blanks wider in the unit. -/
theorem Trails.margins (h : Trails tail strict s w) (hne : s.reader.rest ≠ []) (hstart : s.lineStart = true)
    (hs : Scanner.begin s = .ok (s₁, blank)) : ∃ r m r' m', Scanner.begin s = s.behindMargin r m ∧
      Scanner.begin w = w.behindMargin r' m' ∧ r.rest.getLast? = some '\n' ∧
      holdsNoCode r'.rest = holdsNoCode r.rest ∧
      (Upright ('\n' :: s.reader.rest) → holdsNoCode r.rest = true ∨ m' = (m.1 + 8, m.2 + 8)) := by
  obtain ⟨k, p, hrest, hp, hk⟩ := h.texts
  have hagree := margin_agree 0 0 0 0 none none hp hne
    hrest (Nat.lt_succ_self _) (Nat.lt_succ_self _)
  rw [begin_margin hstart] at hs ⊢
  rw [begin_margin (h.start.trans hstart)]
  generalize margin (s.reader.rest.length + 1) s.reader 0 0 none = x at hagree hs
  generalize margin (w.reader.rest.length + 1) w.reader 0 0 none = y at hagree
  cases hagree with
  | error => cases hs
  | lost => cases hs
  | @ok x y hxy =>
    have hwider : MarginAlike tail strict s.reader.rest (Upright ('\n' :: s.reader.rest)) x y := by
      refine hxy.mono (List.suffix_refl _) fun hup => ?_
      obtain ⟨rfl, -⟩ | ⟨-, hnil | hfeed⟩ := hk hstart
      · refine .inl ⟨hup.suffix (a := ['\n']), fun hfirst => absurd hfirst (hup.head? rfl), .inr ⟨rfl, rfl, rfl, rfl⟩⟩
      · exact absurd hnil hne
      · exact .inr hfeed
    exact ⟨x.1, x.2, y.1, y.2, rfl, rfl, hxy.1.ended.getLast? hxy.2.1, holdsNoCode_eq hxy.1 hxy.2.1, hwider.2.2.2⟩

/-- Behind the starts of their rows both scanners read the same. -/
theorem Trails.step_agree {w₁ : Scanner} (h : Trails tail strict s₁ w₁) (hs : Scanner.begin s = .ok (s₁, blank))
    (hw : Scanner.begin w = .ok (w₁, blank)) (hp : s₁.pending = 0) (hp' : w₁.pending = 0) :
    Agree strict (PassAlike tail strict) (step s) (step w) := by
  have hemit {s : Scanner} (hp : s.pending = 0) : emit s blank = inLine (s.reader.rest.length + 1) s blank := by
    rw [emit, if_neg (by omega), if_neg (by omega)]
  rw [step, step, hs, hw]
  dsimp only
  rw [hemit hp, hemit hp']
  exact inLine_agree blank h (begin_frame hs).2.1 (Nat.lt_succ_self _) (Nat.lt_succ_self _)

/-- A row without code is passed. -/
theorem step_blank (hs : Settled s) (hb : Scanner.begin s = .ok (s₁, true)) :
    ∃ r, r.rest = (s₁.reader.rest.dropWhile (· ≠ '\n')).tail ∧
      step s = .ok (none, { s₁ with reader := r, lineStart := true }) := by
  have hp := hs.pending_of_blank hb
  have hcode : holdsNoCode s₁.reader.rest = true := by
    cases hstart : s.lineStart with
    | false => cases (begin_inside hstart).symm.trans hb
    | true =>
      rw [begin_margin hstart] at hb
      split at hb
      · cases hb
      · have hbehind := behindMargin_ok hb
        rw [hbehind.reader, ← hbehind.blank_eq]
  obtain ⟨c, rest, hrest, hc⟩ : ∃ c rest, s₁.reader.rest = c :: rest ∧ (c = '\n' ∨ c = '#') := by
    cases hrest : s₁.reader.rest with
    | nil => rw [hrest] at hcode; cases hcode
    | cons c rest =>
      rw [hrest] at hcode
      exact ⟨c, rest, rfl, by simpa [holdsNoCode, or_comm] using hcode⟩
  obtain ⟨r, t, hr, -, heq⟩ := inLine_row s₁.reader.rest.length true hrest hc
  refine ⟨r, hr, ?_⟩
  rw [step, hb]
  dsimp only
  rw [emit, if_neg (by omega), if_neg (by omega), heq]
  rfl

/-- Where all levels are positive, a text that is used up closes them all. -/
theorem closeLevels_zero {levels : List (Nat × Nat)} (h : ∀ m ∈ levels, 0 < m.1) :
    closeLevels 0 levels = (levels.length, []) := by
  induction levels with
  | nil => rfl
  | cons m levels ih =>
    rw [closeLevels, if_pos (h m List.mem_cons_self), ih fun m hm => h m (List.mem_cons_of_mem _ hm)]
    rfl

theorem begin_used_up (hstart : s.lineStart = true) (hb : s.brackets = []) (hlevels : ∀ m ∈ s.levels, 0 < m.1)
    (hrest : s.reader.rest = []) : ∃ r, r.rest = [] ∧ Scanner.begin s = .ok ({ s with
      lineStart := false, reader := r, pending := s.pending - s.levels.length, levels := [] }, false) := by
  have hstop : ∀ c rest, s.reader.rest = c :: rest → c ≠ ' ' ∧ c ≠ '\t' ∧ c ≠ '\x0c' ∧ c ≠ '\\' :=
    fun c rest h => nomatch hrest.symm.trans h
  obtain ⟨r, hr, heq⟩ := margin_stop s.reader.rest.length 0 0 none hstop
  refine ⟨r, hr.trans hrest, ?_⟩
  rw [begin_margin hstart, heq]
  dsimp only
  rw [behindMargin, hr, hrest, hb]
  show Except.map _ (reindent _ r 0 0) = _
  rw [reindent]
  dsimp only
  cases hl : s.levels with
  | nil => simp [Except.map]
  | cons m levels =>
    have hm : 0 < m.1 := hlevels m (hl ▸ List.mem_cons_self)
    rw [hl] at hlevels
    rw [List.headD_cons, if_neg (by omega), if_neg (by omega), closeLevels_zero hlevels]
    rfl

/-- What is left of a text that is used up is closed by as many dedents as levels are open. -/
theorem spells_close (hstart : s.lineStart = true) (hp : s.pending = 0) (hb : s.brackets = [])
    (hlevels : ∀ m ∈ s.levels, 0 < m.1) (hrest : s.reader.rest = [] ∨ s.reader.rest = ['\n']) :
    Spells s (List.replicate s.levels.length .dedent) := by
  -- the dedents that are still to be handed over
  have hdrain {n : Nat} {s : Scanner} (hstart : s.lineStart = false) (hp : s.pending = -(n : Int))
      (hrest : s.reader.rest = []) (hb : s.brackets = []) : Spells s (List.replicate n .dedent) := by
    induction n generalizing s with
    | zero =>
      obtain ⟨r, t, -, ht, heq⟩ := inLine_end s.reader.rest.length false hrest
      have hfinish : step s = .ok (some t, { s with reader := r }) := by
        rw [step, begin_inside hstart]
        dsimp only
        rw [emit, if_neg (by omega), if_neg (by omega), heq, hb]
        rfl
      exact .finish hfinish ht
    | succ n ih =>
      have hnext := ih (s := { s with pending := s.pending + 1 }) hstart (by dsimp only; omega) hrest hb
      refine .token (t := s.mark .dedent) ?_ (by rintro ⟨⟩) hnext
      rw [step, begin_inside hstart]
      dsimp only
      rw [emit, if_pos (by omega)]
  have hend {s : Scanner} (hstart : s.lineStart = true) (hp : s.pending = 0) (hb : s.brackets = [])
      (hlevels : ∀ m ∈ s.levels, 0 < m.1) (hrest : s.reader.rest = []) :
      Spells s (List.replicate s.levels.length .dedent) := by
    obtain ⟨r, hr, hbegin⟩ := begin_used_up hstart hb hlevels hrest
    exact (Spells.of_begin hbegin).mp (hdrain rfl (by dsimp only; omega) hr hb)
  rcases hrest with hrest | hrest
  · exact hend hstart hp hb hlevels hrest
  · -- the row that the closing line feed of a unit makes
    have hstop : ∀ c rest, s.reader.rest = c :: rest → c ≠ ' ' ∧ c ≠ '\t' ∧ c ≠ '\x0c' ∧ c ≠ '\\' := by
      rw [hrest]
      rintro c rest ⟨⟩
      decide
    obtain ⟨r, hr, heq⟩ := margin_stop s.reader.rest.length 0 0 none hstop
    have hbegin : Scanner.begin s = .ok ({ s with lineStart := false, reader := r }, true) := by
      rw [begin_margin hstart, heq]
      dsimp only
      rw [behindMargin, hr, hrest]
      rfl
    obtain ⟨r', hr', hstep⟩ := step_blank (fun _ => hp) hbegin
    refine .pass hstep (hend rfl hp hb hlevels (hr'.trans ?_))
    show (r.rest.dropWhile _).tail = []
    rw [hr, hrest]
    rfl

theorem Trails.brackets_nil (h : Trails tail strict s w) (hb : s.brackets = []) : w.brackets = [] := by
  simpa [hb] using h.brackets

/-- At the end of the text nothing but the closing line feed of the unit can be left. -/
theorem Trails.at_end (h : Trails tail strict s w) (hrest : s.reader.rest = []) :
    s.lineStart = true ∧ (w.reader.rest = [] ∨ w.reader.rest = ['\n']) := by
  have hstart : s.lineStart = true := by
    cases hs : s.lineStart with
    | true => rfl
    | false => exact absurd hrest (h.inside hs)
  obtain ⟨k, p, hw, hp, hk⟩ := h.texts
  rw [hrest] at hp hk
  obtain ⟨-, hne⟩ | ⟨rfl, -⟩ := hk hstart
  · exact absurd rfl hne
  · obtain rfl := hp.text.eq_tail
    rw [hw]
    exact ⟨hstart, hp.tail_eq⟩

/-- Both scanners stand in front of rows, and no row of the body held code yet. -/
structure Fresh (tail : List Char) (strict : Prop) (levels : List (Nat × Nat)) (s w : Scanner) : Prop where
  trails : Trails tail strict s w
  lineStart : s.lineStart = true
  body : s.pending = 0 ∧ s.levels = [] ∧ s.brackets = []
  unit : w.pending = 0 ∧ w.levels = levels

variable {levels : List (Nat × Nat)}

theorem Fresh.pass_blank (h : Fresh tail strict levels s w) (hne : s.reader.rest ≠ [])
    (hb : Scanner.begin s = .ok (s₁, true)) : ∃ s' w', step s = .ok (none, s') ∧ step w = .ok (none, w') ∧
      Fresh tail strict levels s' w' ∧ (Upright ('\n' :: s.reader.rest) → Upright ('\n' :: s'.reader.rest)) := by
  obtain ⟨r, m, r', m', hs, hw, -, hcode, -⟩ := h.trails.margins hne h.lineStart hb
  have hnone : holdsNoCode r.rest = true := (behindMargin_ok (hs.symm.trans hb)).blank_eq.symm
  have hbw : Scanner.begin w = .ok ({ w with lineStart := false, reader := r' }, true) := by
    rw [hw, behindMargin, hcode, hnone]
    rfl
  obtain ⟨-, h₁, hstart⟩ := begin_follow h.trails hne hb hbw
  have hsettled : Settled s := fun _ => h.body.1
  obtain ⟨r₁, hr₁, hstep⟩ := step_blank hsettled hb
  obtain ⟨r₁', -, hstep'⟩ := step_blank (fun _ => h.unit.1) hbw
  have hp := hsettled.pending_of_blank hb
  have hagree := h₁.step_agree hb hbw hp h.unit.1
  rw [hstep, hstep'] at hagree
  obtain ⟨hsuffix, -, hbrackets, hlevels⟩ := begin_frame hb
  cases hagree with
  | ok hpass =>
    refine ⟨_, _, hstep, hstep', ⟨hpass.2, rfl, ⟨hp, ?_, ?_⟩, h.unit⟩, fun hup => ?_⟩
    · exact (hlevels rfl).2.trans h.body.2.1
    · exact hbrackets.trans h.body.2.2
    · obtain ⟨k, p, -, hp, -⟩ := h₁.texts
      obtain ⟨front, hfront⟩ := hsuffix
      have hup₁ : Upright s₁.reader.rest := by
        refine Upright.suffix (a := '\n' :: front) ?_
        rw [List.cons_append, hfront]
        exact hup
      show Upright ('\n' :: r₁.rest)
      rw [hr₁]
      exact hup₁.row (hp.ended.mem (h₁.inside hstart))

/-- The first row that holds code is spelled. -/
theorem not_spells_nil (hb : Scanner.begin s = .ok (s₁, false)) (hnil : s.brackets = [])
    (hlast : s₁.reader.rest.getLast? = some '\n') : ¬Spells s [] := by
  have hinLine {t : Option Token} {s' : Scanner} (h : inLine (s₁.reader.rest.length + 1) s₁ false = .ok (t, s')) :
      ∃ u, t = some u ∧ u.lexeme ≠ .finish := by
    obtain ⟨r, -, hlast', hstops⟩ := inLine_stops (Nat.lt_succ_self _) h
    have hbrackets : s₁.brackets = [] := (begin_frame hb).2.2.1.trans hnil
    cases hstops with
    | finish hs =>
      have hs : r.rest = [] := hs
      rw [hs] at hlast'
      cases hlast' hlast
    | @row r' t' _ _ ht =>
      have hrow : (if false || !s₁.brackets.isEmpty then none else some t') = some t' := by rw [hbrackets]; rfl
      exact ⟨t', hrow, by rw [ht]; nofun⟩
    | token hk => exact ⟨_, rfl, hk.lexeme.1⟩
  have hstep {t : Option Token} {s' : Scanner} (h : step s = .ok (t, s')) : ∃ u, t = some u ∧ u.lexeme ≠ .finish := by
    obtain ⟨s₂, blank, hb₂, ⟨n, u, hu, hfin, -⟩ | ⟨-, hin⟩⟩ := step_cases h
    · exact ⟨u, hu, hfin⟩
    · obtain ⟨rfl, rfl⟩ := Prod.mk.inj (Except.ok.inj (hb.symm.trans hb₂))
      exact hinLine hin
  intro hs
  cases hs with
  | finish h ht =>
    obtain ⟨u, hu, hfin⟩ := hstep h
    exact hfin (Option.some.inj hu ▸ ht)
  | pass h =>
    obtain ⟨u, hu, -⟩ := hstep h
    cases hu

theorem Fresh.spelled {ls : List Lexeme} (h : Fresh tail strict levels s w) (hne : s.reader.rest ≠ [])
    (hb : Scanner.begin s = .ok (s₁, false)) (hs : Spells s ls) : ls ≠ [] := by
  obtain ⟨r, m, r', m', hbegin, -, hlast, -⟩ := h.trails.margins hne h.lineStart hb
  rintro rfl
  refine not_spells_nil hb h.body.2.2 ?_ hs
  rwa [(behindMargin_ok (hbegin.symm.trans hb)).reader]

/-- Rows without code are passed, up to the end of the text or the first row that holds code. -/
theorem Fresh.rows {ls : List Lexeme} (h : Fresh tail strict levels s w) (hl : ∀ m ∈ levels, 0 < m.1)
    (hs : Spells s ls) :
    (ls = [] ∧ Spells w (List.replicate levels.length .dedent)) ∨
      ∃ s₂ s₁ w₂, Fresh tail strict levels s₂ w₂ ∧ Scanner.begin s₂ = .ok (s₁, false) ∧ s₂.reader.rest ≠ [] ∧
        Spells s₂ ls ∧ Reads w [] w₂ ∧ (Upright ('\n' :: s.reader.rest) → Upright ('\n' :: s₂.reader.rest)) := by
  induction hn : s.reader.rest.length using Nat.strong_induction_on generalizing s w with
  | _ n ih =>
    by_cases hne : s.reader.rest = []
    · obtain ⟨hp, hlevels, hb⟩ := h.body
      have hclose := spells_close h.lineStart hp hb (by rw [hlevels]; exact fun m hm => nomatch hm) (.inl hne)
      rw [hlevels] at hclose
      have hclose' := spells_close (h.trails.start.trans h.lineStart) h.unit.1 (h.trails.brackets_nil hb)
        (by rwa [h.unit.2]) (h.trails.at_end hne).2
      rw [h.unit.2] at hclose'
      exact .inl ⟨hs.unique hclose, hclose'⟩
    · obtain ⟨t, s', hstep⟩ := hs.exists_step
      obtain ⟨s₁, blank, hb, -⟩ := step_cases hstep
      cases blank with
      | false => exact .inr ⟨s, s₁, w, h, hb, hne, hs, .here w, id⟩
      | true =>
        obtain ⟨s', w', hs', hw', h', hup⟩ := h.pass_blank hne hb
        obtain ⟨ls', rfl, hspells⟩ := (Reads.pass hs' (.here s')).spells_of hs
        have hlt := step_none_lt hs'
        rcases ih _ (hn ▸ hlt) h' hspells rfl with ⟨hnil, hw⟩ | ⟨s₂, s₁, w₂, h₂, hb₂, hne₂, hs₂, hr₂, hup₂⟩
        · exact .inl ⟨hnil, .pass hw' hw⟩
        · exact .inr ⟨s₂, s₁, w₂, h₂, hb₂, hne₂, hs₂, .pass hw' hr₂, hup₂ ∘ hup⟩

end Rows

section Block

/-- How many levels are open behind a lexeme. -/
def deepened (depth : Nat) : Lexeme → Nat
  | .indent => depth + 1
  | .dedent => depth - 1
  | _ => depth

/-- No lexeme indents beyond `limit` levels, where `depth` are open in front of them. -/
def NestedWithin (limit : Nat) : Nat → List Lexeme → Prop
  | _, [] => True
  | depth, l :: ls => (l = .indent → depth < limit) ∧ NestedWithin limit (deepened depth l) ls

variable {tail : List Char} {strict : Prop} {s s' s₁ w : Scanner} {blank : Bool} {depth : Nat}

/-- Both scanners are inside the block of the body, where `depth` levels of the body are open. -/
structure Sheltered (tail : List Char) (strict : Prop) (depth : Nat) (s w : Scanner) : Prop where
  trails : Trails tail strict s w
  settled : Settled s
  pending : w.pending = s.pending ∧ s.pending ≤ 0
  levels : w.levels = sheltered s.levels ∧ ∀ m ∈ s.levels, 0 < m.1
  depth : (depth : Int) = s.levels.length - s.pending ∧ depth ≤ 97
  upright : Upright s.reader.rest ∧ (s.lineStart = true → Upright ('\n' :: s.reader.rest))

/-- What the start of a row does to the levels of the body. -/
theorem Sheltered.start (h : Sheltered tail strict depth s w) (hb : Scanner.begin s = .ok (s₁, blank)) :
    (depth : Int) = s₁.levels.length - s₁.pending ∧ s₁.pending ≤ 1 ∧ ∀ m ∈ s₁.levels, 0 < m.1 := by
  cases hstart : s.lineStart with
  | false =>
    obtain ⟨rfl, -⟩ := Prod.mk.inj (Except.ok.inj ((begin_inside hstart).symm.trans hb))
    exact ⟨h.depth.1, Int.le_trans h.pending.2 Int.one_nonneg, h.levels.2⟩
  | true =>
    rw [begin_margin hstart] at hb
    split at hb
    · cases hb
    · rcases behindMargin_cases hb with ⟨-, rfl, -⟩ | ⟨-, -, -, hr⟩
      · exact ⟨h.depth.1, Int.le_trans h.pending.2 Int.one_nonneg, h.levels.2⟩
      · obtain ⟨hd, hp⟩ := reindent_depth hr
        exact ⟨h.depth.1.trans hd.symm, Int.le_trans hp (Int.add_le_add_right h.pending.2 1),
          reindent_positive hr h.levels.2⟩

/-- A row of the body is begun in the unit as it is in the body. -/
theorem Sheltered.begins (h : Sheltered tail strict depth s w) (hne : s.reader.rest ≠ [])
    (hb : Scanner.begin s = .ok (s₁, blank)) (hdepth : s₁.levels.length ≤ 97) :
    ∃ w₁, Scanner.begin w = .ok (w₁, blank) ∧ Trails tail strict s₁ w₁ ∧ w₁.pending = s₁.pending ∧
      w₁.levels = sheltered s₁.levels := by
  have hbegins : ∃ w₁, Scanner.begin w = .ok (w₁, blank) ∧ w₁.pending = s₁.pending ∧
      w₁.levels = sheltered s₁.levels := by
    cases hstart : s.lineStart with
    | false =>
      obtain ⟨rfl, rfl⟩ := Prod.mk.inj (Except.ok.inj ((begin_inside hstart).symm.trans hb))
      exact ⟨w, begin_inside (h.trails.start.trans hstart), h.pending.1, h.levels.1⟩
    | true =>
      obtain ⟨r, m, r', m', hs, hw, -, hcode, hdeeper⟩ := h.trails.margins hne hstart hb
      rcases behindMargin_cases (hs.symm.trans hb) with ⟨hnone, rfl, rfl⟩ | ⟨hsome, hnil, rfl, hr⟩
      · rw [hw, behindMargin, hcode, h.trails.isEmpty_brackets, if_pos hnone]
        exact ⟨_, rfl, h.pending.1, h.levels.1⟩
      · obtain rfl : m' = (m.1 + 8, m.2 + 8) :=
          (hdeeper (h.upright.2 hstart)).resolve_left (by simp [hsome])
        obtain ⟨w₁, hr', hl, hp⟩ := reindent_sheltered r' (w := { w with lineStart := false, reader := r' }) hr
          h.levels.1 h.pending.1 hdepth
        rw [hw, behindMargin, hcode, hsome, h.trails.isEmpty_brackets, hnil]
        exact ⟨w₁, by rw [hr']; rfl, hp, hl⟩
  obtain ⟨w₁, hbw, hp, hl⟩ := hbegins
  exact ⟨w₁, hbw, (begin_follow h.trails hne hb hbw).2.1, hp, hl⟩

/-- What is read inside a line says nothing about the layout, and is not the end of the text. -/
theorem inLine_upright {fuel : Nat} {t : Option Token} (hf : s.reader.rest.length < fuel)
    (h : inLine fuel s blank = .ok (t, s')) (hstart : s.lineStart = false) (hlast : s.reader.rest.getLast? = some '\n')
    (hup : Upright s.reader.rest) : Upright s'.reader.rest ∧ (s'.lineStart = true → Upright ('\n' :: s'.reader.rest)) ∧
      ∀ u, t = some u → Plain u.lexeme := by
  obtain ⟨r, ⟨front, hfront⟩, hlast', hstops⟩ := inLine_stops hf h
  rw [← hfront] at hup
  have hup := hup.suffix
  have hmem : '\n' ∈ r.rest := List.mem_of_getLast? (hlast' hlast)
  cases hstops with
  | finish hs =>
    have hs : r.rest = [] := hs
    rw [hs] at hmem
    cases hmem
  | @row r' t' hs hr ht =>
    have hr : r'.rest = (r.rest.dropWhile (· ≠ '\n')).tail := hr
    have hrow : Upright ('\n' :: r'.rest) := hr ▸ hup.row hmem
    refine ⟨hrow.suffix (a := ['\n']), fun _ => hrow, fun u hu => ?_⟩
    split at hu
    · cases hu
    · rw [← Option.some.inj hu, ht]
      simp [Plain]
  | token hk =>
    obtain ⟨front', hfront'⟩ := hk.rest
    have hfront' : front' ++ s'.reader.rest = r.rest := hfront'
    rw [← hfront'] at hup
    refine ⟨hup.suffix, fun h => absurd (hk.lineStart.symm.trans h) (by simp [hstart]), fun u hu => ?_⟩
    exact Option.some.inj hu ▸ hk.lexeme

theorem deepened_plain {l : Lexeme} (hl : Plain l) (depth : Nat) : deepened depth l = depth := by
  cases l with
  | indent => exact absurd rfl hl.2.1
  | dedent => exact absurd rfl hl.2.2
  | _ => rfl

/-- Both scanners begun a row of the block, and have indents or dedents to hand over in front of it. -/
structure Begun (tail : List Char) (strict : Prop) (depth : Nat) (s w : Scanner) : Prop where
  trails : Trails tail strict s w
  inside : s.lineStart = false
  pending : w.pending = s.pending
  levels : w.levels = sheltered s.levels ∧ ∀ m ∈ s.levels, 0 < m.1
  depth : (depth : Int) = s.levels.length - s.pending
  upright : Upright s.reader.rest

/-- What an indent or a dedent leaves to be handed over. -/
theorem Begun.hand_over (h : Begun tail strict depth s w) {n : Int} {d : Nat} (hn : n ≤ 0)
    (hd : (d : Int) = s.levels.length - n) (hle : d ≤ 97) :
    Sheltered tail strict d { s with pending := n } { w with pending := n } := by
  have hinside {p : Prop} (hs : s.lineStart = true) : p := absurd hs (by simp [h.inside])
  exact ⟨h.trails.pending n n, hinside, ⟨rfl, hn⟩, h.levels, ⟨hd, hle⟩, h.upright, hinside⟩

/-- Inside the row both scanners read the same. -/
theorem Begun.reads {t : Option Token} (h : Begun tail strict depth s w) (hle : depth ≤ 97) (hp : s.pending = 0)
    (hs : inLine (s.reader.rest.length + 1) s blank = .ok (t, s')) :
    ∃ t' w', inLine (w.reader.rest.length + 1) w blank = .ok (t', w') ∧
      t'.map (·.lexeme) = t.map (paddedLexeme ·.lexeme) ∧ (∀ u, t = some u → Plain u.lexeme) ∧
        Sheltered tail strict depth s' w' := by
  obtain ⟨k, p, -, hbeside, -⟩ := h.trails.texts
  have hlast := hbeside.ended.getLast? (h.trails.inside h.inside)
  obtain ⟨hup, hrow, hplain⟩ := inLine_upright (Nat.lt_succ_self _) hs h.inside hlast h.upright
  have hagree := inLine_agree blank h.trails h.inside (Nat.lt_succ_self _) (Nat.lt_succ_self _)
  rw [hs] at hagree
  generalize hin : inLine (w.reader.rest.length + 1) w blank = y at hagree
  cases hagree with
  | @ok x y hpass =>
    obtain ⟨t', w'⟩ := y
    obtain ⟨hps, hls⟩ := inLine_frame (Nat.lt_succ_self _) hs
    obtain ⟨hpw, hlw⟩ := inLine_frame (Nat.lt_succ_self _) hin
    have hlevels : w'.levels = sheltered s'.levels := by rw [hlw, hls, h.levels.1]
    have hpending : w'.pending = s'.pending := by rw [hpw, hps, h.pending]
    refine ⟨t', w', rfl, hpass.1, hplain, hpass.2, fun _ => hps.trans hp, ⟨hpending, Int.le_of_eq (hps.trans hp)⟩,
      ⟨hlevels, hls ▸ h.levels.2⟩, ⟨?_, hle⟩, hup, hrow⟩
    rw [hls, hps]
    exact h.depth

/-- Both scanners hand over the same, and stay inside the block. -/
theorem Sheltered.steps {t : Option Token} (h : Sheltered tail strict depth s w) (hne : s.reader.rest ≠ [])
    (hs : step s = .ok (t, s')) (ht : ∀ u, t = some u → u.lexeme = .indent → depth < 97) :
    ∃ t' w', step w = .ok (t', w') ∧ t'.map (·.lexeme) = t.map (paddedLexeme ·.lexeme) ∧
      (∀ u, t = some u → u.lexeme ≠ .finish) ∧
        Sheltered tail strict ((t.map (deepened depth ·.lexeme)).getD depth) s' w' := by
  have hle := h.depth.2
  rw [step] at hs
  split at hs
  · cases hs
  case _ s₁ blank hb =>
  obtain ⟨hdepth, hone, hpos⟩ := h.start hb
  obtain ⟨⟨front, hfront⟩, hstart, -⟩ := begin_frame hb
  have hup : Upright s₁.reader.rest := Upright.suffix (a := front) (hfront ▸ h.upright.1)
  have hbegun (hlen : s₁.levels.length ≤ 97) : ∃ w₁, Begun tail strict depth s₁ w₁ ∧ step w = emit w₁ blank := by
    obtain ⟨w₁, hbw, h₁, hp, hl⟩ := h.begins hne hb hlen
    exact ⟨w₁, ⟨h₁, hstart, hp, ⟨hl, hpos⟩, hdepth, hup⟩, by rw [step, hbw]⟩
  rw [emit] at hs
  by_cases hneg : s₁.pending < 0
  · -- a dedent
    rw [if_pos hneg] at hs
    obtain ⟨rfl, rfl⟩ := Prod.mk.inj (Except.ok.inj hs)
    obtain ⟨w₁, h₁, heq⟩ := hbegun (by omega)
    have hd : ((depth - 1 : Nat) : Int) = s₁.levels.length - (s₁.pending + 1) := by omega
    refine ⟨some (w₁.mark .dedent), { w₁ with pending := s₁.pending + 1 }, ?_, rfl,
      fun u hu => Option.some.inj hu ▸ (by rintro ⟨⟩), h₁.hand_over (by omega) hd (Nat.le_trans (Nat.sub_le depth 1) hle)⟩
    rw [heq, emit, h₁.pending, if_pos hneg]
  by_cases hpos' : s₁.pending > 0
  · -- an indent
    rw [if_neg hneg, if_pos hpos'] at hs
    obtain ⟨rfl, rfl⟩ := Prod.mk.inj (Except.ok.inj hs)
    have hlt := ht _ rfl rfl
    obtain ⟨w₁, h₁, heq⟩ := hbegun (by omega)
    have hd : ((depth + 1 : Nat) : Int) = s₁.levels.length - (s₁.pending - 1) := by omega
    refine ⟨some (w₁.mark .indent), { w₁ with pending := s₁.pending - 1 }, ?_, rfl,
      fun u hu => Option.some.inj hu ▸ (by rintro ⟨⟩), h₁.hand_over (by omega) hd hlt⟩
    rw [heq, emit, h₁.pending, if_neg hneg, if_pos hpos']
  · rw [if_neg hneg, if_neg hpos'] at hs
    have hp : s₁.pending = 0 := by omega
    obtain ⟨w₁, h₁, heq⟩ := hbegun (by omega)
    obtain ⟨t', w', hin, hlexeme, hplain, h'⟩ := h₁.reads hle hp hs
    have hdeep : (t.map (deepened depth ·.lexeme)).getD depth = depth := by
      cases t with
      | none => rfl
      | some u => exact deepened_plain (hplain u rfl) depth
    refine ⟨t', w', ?_, hlexeme, fun u hu => (hplain u hu).1, hdeep.symm ▸ h'⟩
    rw [heq, emit, h₁.pending, if_neg hneg, if_neg hpos', hin]

/-- At the end of its text the block is closed, and with it the method and the class. -/
theorem Sheltered.ends {ls : List Lexeme} (h : Sheltered tail strict depth s w) (hrest : s.reader.rest = [])
    (hs : Spells s ls) : Spells w (ls.map paddedLexeme ++ [.dedent, .dedent]) := by
  obtain ⟨hstart, hrest'⟩ := h.trails.at_end hrest
  have hp := h.settled hstart
  have hb : s.brackets = [] := by
    refine Classical.byContradiction fun hb => not_ends_of_idle hb ?_ hs.ends
    rw [hrest]
    exact fun c hc => nomatch hc
  have hclose := spells_close hstart hp hb h.levels.2 (.inl hrest)
  have hpos : ∀ m ∈ w.levels, 0 < m.1 := by
    rw [h.levels.1, sheltered]
    intro m hm
    rcases List.mem_append.mp hm with hm | hm
    · obtain ⟨n, -, rfl⟩ := List.mem_map.mp hm
      exact Nat.succ_pos _
    · rcases (by simpa using hm : m = (8, 8) ∨ m = (4, 4)) with rfl | rfl <;> decide
  have hclose' := spells_close (h.trails.start.trans hstart) (h.pending.1.trans hp) (h.trails.brackets_nil hb) hpos
    hrest'
  rw [h.levels.1, length_sheltered, ← List.replicate_append_replicate] at hclose'
  rw [hs.unique hclose, List.map_replicate]
  exact hclose'

/-- The unit spells the block as the body is spelled, and closes what is around it. -/
theorem Sheltered.spells {ls : List Lexeme} (h : Sheltered tail strict depth s w) (hs : Spells s ls)
    (hn : NestedWithin 97 depth ls) : Spells w (ls.map paddedLexeme ++ [.dedent, .dedent]) := by
  -- the induction is on what the body spells, where `depth` follows its indents and dedents
  induction hs generalizing w depth with
  | @finish s s' t hstep ht =>
    by_cases hne : s.reader.rest = []
    · exact h.ends hne (.finish hstep ht)
    · obtain ⟨t', w', -, -, hfin, -⟩ := h.steps hne hstep fun u hu hl => by
        rw [← Option.some.inj hu, ht] at hl
        cases hl
      exact absurd ht (hfin t rfl)
  | @pass s s' ls hstep hr ih =>
    by_cases hne : s.reader.rest = []
    · exact h.ends hne (.pass hstep hr)
    · obtain ⟨t', w', hstep', hlexeme, -, h'⟩ := h.steps hne hstep fun u hu => nomatch hu
      obtain rfl : t' = none := Option.map_eq_none_iff.mp hlexeme
      exact .pass hstep' (ih h' hn)
  | @token s s' t ls hstep ht hr ih =>
    by_cases hne : s.reader.rest = []
    · exact h.ends hne (.token hstep ht hr)
    · obtain ⟨hlt, hn⟩ := hn
      obtain ⟨t', w', hstep', hlexeme, -, h'⟩ := h.steps hne hstep fun u hu hl => hlt (Option.some.inj hu ▸ hl)
      obtain ⟨u, rfl, hu⟩ := Option.map_eq_some_iff.mp hlexeme
      have hfin : u.lexeme ≠ .finish := fun h => ht (eq_finish_of_padded (hu.symm.trans h))
      have hnext := Spells.token hstep' hfin (ih h' hn)
      rwa [hu] at hnext

/-- The first row that holds code opens the block of the method. -/
theorem Fresh.enter {ls : List Lexeme} (h : Fresh tail strict [(4, 4)] s w) (hne : s.reader.rest ≠ [])
    (hb : Scanner.begin s = .ok (s₁, false)) (hup : Upright ('\n' :: s.reader.rest)) (hs : Spells s ls)
    (hfirst : ls.head? ≠ some .indent) :
    ∃ t w₁, step w = .ok (some t, w₁) ∧ t.lexeme = .indent ∧ Sheltered tail strict 0 s₁ w₁ := by
  obtain ⟨r, m, r', m', hbegin, hw, -, hcode, hdeeper⟩ := h.trails.margins hne h.lineStart hb
  obtain ⟨hp, hlevels, hnil⟩ := h.body
  obtain ⟨hp', hlevels'⟩ := h.unit
  rcases behindMargin_cases (hbegin.symm.trans hb) with ⟨hnone, -, hblank⟩ | ⟨hsome, -, -, hr⟩
  · rw [← hblank, hnil] at hnone
    cases hnone
  have hflush : s₁ = { s with lineStart := false, reader := r } ∧ m = (0, 0) := by
    rcases reindent_first hr hlevels with ⟨hcol, halt, rfl⟩ | hpending
    · exact ⟨rfl, Prod.ext hcol halt⟩
    · -- the row would be spelled with an indent
      have hone : s₁.pending = 1 := by
        rw [hpending]
        exact congrArg (· + 1) hp
      have hindent : step s = .ok (some (s₁.mark .indent), { s₁ with pending := s₁.pending - 1 }) := by
        rw [step, hb]
        dsimp only
        rw [emit, if_neg (by omega), if_pos (by omega)]
      obtain ⟨ls', rfl, -⟩ := (Reads.token hindent (by rintro ⟨⟩) (.here _)).spells_of hs
      exact absurd rfl hfirst
  obtain ⟨rfl, rfl⟩ := hflush
  obtain rfl : m' = (8, 8) := (hdeeper hup).resolve_left (by simp [hsome])
  let w₁ : Scanner := ⟨r', false, 1, [(8, 8), (4, 4)], []⟩
  have hbw : Scanner.begin w = .ok (w₁, false) := by
    rw [hw, behindMargin, hcode, hsome, h.trails.brackets_nil hnil]
    show Except.map _ (reindent _ r' 8 8) = _
    rw [reindent]
    dsimp only
    rw [hlevels', hp']
    rfl
  obtain ⟨-, h₁, hstart⟩ := begin_follow h.trails hne hb hbw
  obtain ⟨front, hfront⟩ := (begin_frame hb).1
  have hup₁ : Upright r.rest := by
    refine Upright.suffix (a := '\n' :: front) ?_
    rw [List.cons_append]
    exact hfront ▸ hup
  have hinside {p : Prop} (h : false = true) : p := absurd h Bool.false_ne_true
  refine ⟨w₁.mark .indent, { w₁ with pending := 0 }, ?_, rfl, h₁.pending s.pending 0, hinside,
    ⟨hp.symm, Int.le_of_eq hp⟩, ⟨?_, ?_⟩, ⟨?_, Nat.zero_le 97⟩, hup₁, hinside⟩
  · rw [step, hbw]
    rfl
  · show [(8, 8), (4, 4)] = sheltered s.levels
    rw [hlevels]
    rfl
  · show ∀ m ∈ s.levels, 0 < m.1
    rw [hlevels]
    exact List.forall_mem_nil _
  · show ((0 : Nat) : Int) = (s.levels.length : Int) - s.pending
    rw [hlevels, hp]
    rfl

end Block

section Unit

variable {code body : List Char} {name : String} {ls : List Lexeme}

/-- What a unit holds behind its header: the body in a block of its own, if it has any tokens. -/
def housed (ls : List Lexeme) : List Lexeme :=
  if ls = [] then [.dedent] else .indent :: (ls.map paddedLexeme ++ [.dedent, .dedent])

theorem spells_unit (hname : isIdentifier name.toList = true) (hb : body ≠ [])
    (hs : Spells (Scanner.ofText (canonical body)) ls)
    (h : ls ≠ [] → Upright ('\n' :: canonical body) ∧ ls.head? ≠ some .indent ∧ NestedWithin 97 0 ls) :
    Spells (Scanner.ofText (canonical (closed (unitHeader name ++ indent bodyIndent body))))
      (headerLexemes name ++ housed ls) := by
  obtain ⟨ts, w, x, hreads, hlexemes, hstands, htrails⟩ := reads_unit hname hb
  have hfresh : Fresh (feedBehind body) (¬['\\', '\r'] <:+ body) [(4, 4)] (Scanner.ofText (canonical body)) w :=
    ⟨htrails, rfl, ⟨rfl, rfl, rfl⟩, hstands.pending, hstands.levels⟩
  have hpos : ∀ m ∈ [((4 : Nat), (4 : Nat))], 0 < m.1 := by decide
  rw [← hlexemes]
  refine hreads.spells ?_
  rcases hfresh.rows hpos hs with ⟨rfl, hw⟩ | ⟨s₂, s₁, w₂, h₂, hb₂, hne₂, hs₂, hr₂, hup₂⟩
  · exact hw
  · have hne := h₂.spelled hne₂ hb₂ hs₂
    obtain ⟨hup, hfirst, hnest⟩ := h hne
    obtain ⟨t, w₃, hstep, hl, h₃⟩ := h₂.enter hne₂ hb₂ (hup₂ hup) hs₂ hfirst
    have hblock := h₃.spells ((Spells.of_begin hb₂).mpr hs₂) hnest
    have hopen := Spells.token hstep (by rw [hl]; nofun) hblock
    rw [housed, if_neg hne, ← hl]
    exact hr₂.spells hopen

theorem unitBody_ne_nil (h : unitBody code = .ok body) : body ≠ [] := by
  rw [unitBody] at h
  split at h
  · cases h
  · obtain rfl := Except.ok.inj h
    split
    case isTrue => exact List.cons_ne_nil _ _
    case isFalse hb =>
      rintro rfl
      exact hb rfl

/-- A unit has the tokens of its body, in a block of their own behind its header. -/
theorem wrap_lexemes (hname : isIdentifier name.toList = true) (hbody : unitBody code = .ok body)
    (hls : TokenStream.lexemes body = ls ++ [.finish])
    (hlayout : ls ≠ [] → Upright ('\n' :: canonical body) ∧ ls.head? ≠ some .indent ∧ NestedWithin 97 0 ls) :
    ∃ u, wrap [] code name = .ok u ∧ (TokenStream.ofText u.source).halt = none ∧
      TokenStream.lexemes u.source = headerLexemes name ++ housed ls ++ [.finish] := by
  have hb := unitBody_ne_nil hbody
  obtain ⟨t, ht, hl⟩ : ∃ t ∈ (TokenStream.ofText body).tokens, t.lexeme = .finish := by
    have hmem : Lexeme.finish ∈ TokenStream.lexemes body := by
      rw [hls]
      exact List.mem_append_right ls List.mem_cons_self
    obtain ⟨t, ht, hl⟩ := List.mem_map.mp hmem
    exact ⟨t, Array.mem_toList_iff.mp ht, hl⟩
  obtain ⟨ls', hs, hls', hlen⟩ := TokenStream.spells_of_finish ht hl
  obtain rfl : ls' = ls := List.append_cancel_right (hls'.symm.trans hls)
  have hspells := spells_unit hname hb hs hlayout
  obtain ⟨p, hsource, hp⟩ := canonical_unit (not_mem_header (.inl rfl) hname) hb
  have hle := hp.length_le
  have hhoused : (housed ls').length ≤ ls'.length + 3 := by
    rw [housed]
    split <;> simp
  have hfuel : (headerLexemes name ++ housed ls').length <
      2 * (canonical (closed (unitHeader name ++ indent bodyIndent body))).length + indentLimit + 2 := by
    have hheader : (headerLexemes name).length = 12 := rfl
    have hmargin : bodyIndent.length = 8 := rfl
    rw [hsource]
    simp only [List.length_append, hheader, hmargin]
    omega
  obtain ⟨hlexemes, hhalt⟩ := TokenStream.lexemes_of_spells hspells hfuel
  refine ⟨⟨name, unitFilename name, closed (unitHeader name ++ indent bodyIndent body), 2⟩, ?_, hhalt, hlexemes⟩
  rw [wrap, hbody]
  rfl

end Unit

end Evalbox
