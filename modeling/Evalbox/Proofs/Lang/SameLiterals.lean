import Evalbox.Proofs.Lang.Duo

/-!
# String literals do the same in two runs

A literal is cut into the same pieces wherever it stands. The expressions in its fields are parsed on their own, so
they are alike if the parsers of fields answer alike.
-/

namespace Evalbox.Lang.P

open Parse Same

set_option synthInstance.maxSize 2000

/-! ## Pieces -/

instance : Kin Piece where
  alike
    | .text cs, .text cs' => Kin.alike cs cs'
    | .field e, .field e' => Kin.alike e e'
    | _, _ => False

instance {cs cs' : List Char} [h : Alike cs cs'] : Alike (Piece.text cs) (.text cs') := ⟨h.alike⟩

instance {e e' : Expr} [h : Alike e e'] : Alike (Piece.field e) (.field e') := ⟨h.alike⟩

instance : Kin Rest := ⟨fun r r' => r.chars = r'.chars⟩

/-- Where the rest of a literal stands makes no difference. -/
instance (cs : List Char) (p p' : Place) : Alike (Rest.mk cs p) ⟨cs, p'⟩ := ⟨rfl⟩

instance (cs : List Char) : Alike cs cs := ⟨List.forall₂_same.mpr fun _ _ => rfl⟩

instance {s s' : Span} {ps ps' : List Piece} [h : Alike ps ps'] : Alike (joinedOf s ps) (joinedOf s' ps') := by
  -- the expressions so far are alike, and the text behind them is the same
  let R (a a' : List Expr × List Char) : Prop := Alike a.1 a'.1 ∧ a.2 = a'.2
  unfold joinedOf
  dsimp only
  generalize hx : List.foldl _ _ ps = x
  generalize hx' : List.foldl _ _ ps' = x'
  have hxx : R x x' := by
    subst hx hx'
    refine List.rel_foldl (P := R) (R := Kin.alike) (fun a a' ha p p' hp => ?_) ⟨inferInstance, rfl⟩ h.alike
    obtain ⟨hparts, htext⟩ := ha
    cases p with
    | text cs =>
      cases p' with
      | text cs' => exact ⟨hparts, congrArg₂ (· ++ ·) htext (List.forall₂_eq_eq_eq ▸ hp : cs = cs')⟩
      | field => cases hp
    | field e =>
      cases p' with
      | text => cases hp
      | field e' =>
        have : Alike e e' := ⟨hp⟩
        refine ⟨?_, rfl⟩
        rw [htext]
        dsimp only
        split <;> infer_instance
  obtain ⟨hparts, htext⟩ := hxx
  rw [htext]
  split <;> infer_instance

/-! ## The text of a literal -/

variable {D : Duo} {g g' : Grammar} {b : Nat} {field field' : FieldParser}

instance (t t' : Token) (raw : Bool) (body : List Char) :
    Same D g g' b 0 (unescaped t raw body) (unescaped t' raw body) := by
  unfold unescaped
  split
  · infer_instance
  · split
    · exact of_reject _
    · split <;> infer_instance

/-- Warnings are not compared. -/
instance (ws ws' : List Warning) : Same D g g' b 0
    (fun _ st => .ok () { st with warnings := ws ++ st.warnings } : P Unit)
    (fun _ st => .ok () { st with warnings := ws' ++ st.warnings }) :=
  ⟨fun _ _ hw _ _ _ hm hm' hk => .ok ⟨rfl, Nat.le_of_eq hm.symm, hm ▸ hw.le⟩ (hm'.trans (hm ▸ rfl)) hk⟩

/-- What one parser of fields answers the other answers too, wherever the field stands. -/
def FieldsMeet (field field' : FieldParser) : Prop :=
  ∀ text p p' e ws, field text p = .ok (e, ws) → ∃ e' ws', field' text p' = .ok (e', ws') ∧ Kin.alike e e'

section Pieces

variable {t t' : Token} {s s' : Span} {raw : Bool} {fuel : Nat}

theorem drop_chars (r : Rest) (n : Nat) : (r.drop n).chars = r.chars.drop n := rfl

instance {r r' : Rest} [h : Alike r r'] (n : Nat) : Alike (r.drop n) (r'.drop n) :=
  ⟨congrArg (List.drop n) (show r.chars = r'.chars from h.alike)⟩

theorem same_pieces_succ
    (hp : ∀ depth r r' [Alike r r'],
      Same D g g' 13 0 (pieces field t s raw fuel depth r) (pieces field' t' s' raw fuel depth r'))
    (hr : ∀ depth r r' [Alike r r'],
      Same D g g' 13 0 (replacement field t s raw fuel depth r) (replacement field' t' s' raw fuel depth r'))
    (depth : Nat) (r r' : Rest) [hrr : Alike r r'] :
    Same D g g' 13 0 (pieces field t s raw (fuel + 1) depth r) (pieces field' t' s' raw (fuel + 1) depth r') := by
  have hchars : r.chars = r'.chars := hrr.alike
  rw [pieces, pieces, hchars]
  split
  case h_1 => exact of_reject _
  case h_2 n doubled odd _ =>
  have (x : Akin (List Char)) : Alike (if n = 0 then [] else [Piece.text x.left]) (if n = 0 then [] else [Piece.text x.right]) := by
    split <;> infer_instance
  have hdrop : (r.drop n).chars = (r'.drop n).chars := congrArg (List.drop n) hchars
  dsimp only
  rw [hdrop]
  cases doubled
  · simp only [Bool.false_eq_true, if_false]
    split
    · split <;> infer_instance
    · split <;> infer_instance
  · simp only [if_true]
    split <;> infer_instance

theorem same_replacement_succ (hfield : FieldsMeet field field')
    (hp : ∀ depth r r' [Alike r r'],
      Same D g g' 13 0 (pieces field t s raw fuel depth r) (pieces field' t' s' raw fuel depth r'))
    (depth : Nat) (r r' : Rest) [hrr : Alike r r'] :
    Same D g g' 13 0 (replacement field t s raw (fuel + 1) depth r)
      (replacement field' t' s' raw (fuel + 1) depth r') := by
  have hchars : r.chars = r'.chars := hrr.alike
  rw [replacement, replacement, hchars]
  extract_lets body
  split
  case isTrue => exact of_reject_bind _ _
  split
  case h_1 => exact of_reject _
  case h_2 n _ =>
  extract_lets source after parsed filled after' parsed' filled'
  have halike : Alike after after' := inferInstanceAs (Alike (r.drop (n + 1)) (r'.drop (n + 1)))
  have hafter : after.chars = after'.chars := halike.alike
  clear_value after after' source body
  have hparsed : Same D g g' 13 0 (parsed ()) (parsed' ()) := by
    unfold parsed parsed'
    cases hleft : field ('(' :: source ++ [')']) r.place with
    | error e => exact of_stop fun _ => ⟨_, rfl⟩
    | ok x =>
    obtain ⟨value, ws⟩ := x
    obtain ⟨value', ws', hright, hvalue⟩ := hfield _ _ r'.place _ _ hleft
    rw [hright]
    have := Alike.mk hvalue
    refine bind_zero inferInstance fun _ _ _ => ?_
    dsimp -zeta only
    rw [hafter]
    clear parsed parsed' filled filled'
    -- whether the field shows its own text or not, the same may follow
    split
    case' h_1 => extract_lets blanks converted converted'
    case' h_2 => extract_lets converted converted'
    all_goals
      have hconverted (x x' : Option Char × Rest) (hx : Kin.alike x x') :
          Same D g g' 13 0 (converted x) (converted' x') := by
        have := Alike.mk hx
        unfold converted converted'
        extract_lets specified specified'
        have hspecified (x x' : Option Expr × Rest) (hx : Kin.alike x x') :
            Same D g g' 13 0 (specified x) (specified' x') := by
          have := Alike.mk hx
          unfold specified specified'
          rw [show x.2.chars = x'.2.chars from hx.2]
          split
          · dsimp only
            infer_instance
          · exact of_reject _
        have (x : Akin (Option Expr × Rest)) := hspecified x.left x.right x.alike
        rw [show x.2.chars = x'.2.chars from hx.2]
        split
        · exact of_reject_bind _ _
        · infer_instance
        · infer_instance
      have (x : Akin (Option Char × Rest)) := hconverted x.left x.right x.alike
      dsimp -zeta only [drop_chars]
      rw [hafter]
      split
      · split
        · infer_instance
        · exact of_reject_bind _ _
      · exact of_reject_bind _ _
      · infer_instance
  rw [hafter]
  split
  case isTrue => exact of_reject_bind _ _
  unfold filled filled'
  dsimp only
  split
  case isTrue => exact of_reject_bind _ _
  exact hparsed

end Pieces

/-- A literal and its fields hold one another, in turns. -/
theorem same_pieces_replacement (hfield : FieldsMeet field field') (t t' : Token) (s s' : Span) (raw : Bool)
    (fuel : Nat) :
    (∀ depth r r' [Alike r r'],
      Same D g g' 13 0 (pieces field t s raw fuel depth r) (pieces field' t' s' raw fuel depth r')) ∧
    ∀ depth r r' [Alike r r'],
      Same D g g' 13 0 (replacement field t s raw fuel depth r) (replacement field' t' s' raw fuel depth r') := by
  induction fuel with
  | zero =>
    constructor
    · intro depth r r' _
      rw [pieces, pieces]
      infer_instance
    · intro depth r r' _
      rw [replacement, replacement]
      infer_instance
  | succ fuel ih =>
    obtain ⟨hp, hr⟩ := ih
    exact ⟨fun depth r r' _ => same_pieces_succ hp hr depth r r',
      fun depth r r' _ => same_replacement_succ hfield hp depth r r'⟩

/-! ## Adjacent literals -/

instance : Kin Literals where
  alike
    | .bytes v, .bytes v' => v = v'
    | .text f ps, .text f' ps' => f = f' ∧ Kin.alike ps ps'
    | _, _ => False

instance (v : List UInt8) : Alike v v := ⟨List.forall₂_same.mpr fun _ _ => rfl⟩

instance (v : List UInt8) : Alike (Literals.bytes v) (.bytes v) := ⟨rfl⟩

instance (f : Bool) {ps ps' : List Piece} [h : Alike ps ps'] : Alike (Literals.text f ps) (.text f ps') :=
  ⟨⟨rfl, h.alike⟩⟩

section Adding

variable {o o' : Option Literals}

theorem same_addLiteral (hfield : FieldsMeet field field') (s s' : Span) (ho : Kin.alike o o') (t t' : Token)
    (lexeme : List Char) :
    Same D g g' 13 0 (addLiteral field s o (t, lexeme)) (addLiteral field' s' o' (t', lexeme)) := by
  unfold addLiteral
  dsimp -zeta only
  extract_lets literal added valued joined quotes place added' valued' joined' place'
  have hadded (value value' : List UInt8) (h : Kin.alike value value') :
      Same D g g' 13 0 (added value) (added' value') := by
    obtain rfl : value = value' := List.forall₂_eq_eq_eq ▸ h
    unfold added added'
    cases ho with
    | none => infer_instance
    | some h =>
      rename_i a a'
      cases a with
      | bytes v =>
        cases a' with
        | bytes v' =>
          obtain rfl : v = v' := h
          infer_instance
        | text => cases h
      | text => exact of_reject _
  have (x : Akin (List UInt8)) := hadded x.left x.right x.alike
  have hvalued : Same D g g' 13 0 (valued ()) (valued' ()) := by
    unfold valued valued'
    split
    · infer_instance
    · split
      · exact of_reject_bind _ _
      · dsimp only
        split <;> infer_instance
  have hjoined (found found' : List Piece) (h : Kin.alike found found') :
      Same D g g' 13 0 (joined found) (joined' found') := by
    have := Alike.mk h
    unfold joined joined'
    cases ho with
    | none => infer_instance
    | some h =>
      rename_i a a'
      cases a with
      | bytes v => exact of_reject _
      | text f ps =>
        cases a' with
        | bytes => cases h
        | text f' ps' =>
          obtain ⟨rfl, hps⟩ := h
          have := Alike.mk hps
          infer_instance
  have (x : Akin (List Piece)) := hjoined x.left x.right x.alike
  split
  · split
    · exact of_stop fun _ => ⟨_, rfl⟩
    · exact hvalued
  · have (depth : Nat) (r r' : Rest) [Alike r r'] : Same D g g' 13 0
        (pieces field t s literal.isRaw (literal.body.length + 2) depth r)
        (pieces field' t' s' literal.isRaw (literal.body.length + 2) depth r') :=
      (same_pieces_replacement hfield t t' s s' _ _).1 depth r r'
    split <;> infer_instance

theorem same_addLiterals (hfield : FieldsMeet field field') (s s' : Span) {ts ts' : List (Token × List Char)}
    (hts : Kin.alike ts ts') (ho : Kin.alike o o') :
    Same D g g' 13 0 (ts.foldlM (addLiteral field s) o) (ts'.foldlM (addLiteral field' s') o') := by
  induction hts generalizing o o' with
  | nil =>
    have := Alike.mk ho
    exact (inferInstance : Same D g g' 13 0 (Pure.pure o) (Pure.pure o'))
  | cons ht hmore ih =>
    rename_i t t' more more'
    obtain ⟨t, cs⟩ := t
    obtain ⟨t', cs'⟩ := t'
    obtain rfl : cs = cs' := List.forall₂_eq_eq_eq ▸ ht.2
    exact bind_zero (same_addLiteral hfield s s' ho t t' cs) fun a a' ha => ih ha

end Adding

theorem flatMap_eq_of_alike {f : Piece → List Char} {ps ps' : List Piece} (h : Kin.alike ps ps')
    (hf : ∀ p p', Kin.alike p p' → f p = f p') : ps.flatMap f = ps'.flatMap f := by
  induction h with
  | nil => rfl
  | cons hp _ ih => rw [List.flatMap_cons, List.flatMap_cons, ih, hf _ _ hp]

theorem same_strings (hfield : FieldsMeet field field') : Same D g g' b 1 (strings field) (strings field') := by
  unfold strings
  extract_lets literal
  have hliteral (b : Nat) : Same D g g' b 1 literal literal := by
    refine Same.accept (fun t u htu => ?_) fun t ht => ?_
    · rw [htu]
      split
      · exact .some ⟨htu, List.forall₂_same.mpr fun _ _ => rfl⟩
      · exact .none
    · split
      · rename_i h
        rw [h] at ht
        cases ht
      · rfl
  clear_value literal
  refine bind_one (d := 0) (hliteral b) fun first first' hfirst => bind_zero inferInstance fun more more' hmore =>
    bind_zero (same_addLiterals hfield _ _ (.cons hfirst hmore) .none) fun v v' hv => ?_
  obtain ⟨first, cs⟩ := first
  obtain ⟨first', cs'⟩ := first'
  obtain rfl : cs = cs' := List.forall₂_eq_eq_eq ▸ hfirst.2
  cases hv with
  | none => exact (inferInstance : Same D g g' 13 1 P.fail P.fail).weaken (Nat.zero_le 1)
  | some h =>
    rename_i a a'
    cases a with
    | bytes v =>
      cases a' with
      | bytes v' =>
        obtain rfl : v = v' := h
        infer_instance
      | text => cases h
    | text f ps =>
      cases a' with
      | bytes => cases h
      | text f' ps' =>
        obtain ⟨rfl, hps⟩ := h
        have := Alike.mk hps
        cases f
        · dsimp only
          rw [flatMap_eq_of_alike hps]
          · infer_instance
          · intro p p' hp
            cases p with
            | text cs =>
              cases p' with
              | text cs' => exact List.forall₂_eq_eq_eq ▸ hp
              | field => cases hp
            | field =>
              cases p' with
              | text => cases hp
              | field => rfl
        · infer_instance

end Evalbox.Lang.P
