import Evalbox.Proofs.Lang.SameStatements

/-!
# A grammar without memory

What a parser remembers spares it work, but tells it nothing new: every remembered answer is what the grammar without
memory answers (`Faithful`), so that both parse alike (`meets_grammar`). How often the recursion of either is unfolded
makes no difference once it is often enough (`bound`).
-/

namespace Evalbox.Lang

open Parse

/-- The grammar with its recursion unfolded `n` times, in which nothing is remembered. -/
def Parse.plain (field : FieldParser) : Nat → Grammar
  | 0 => fun _ => P.fail
  | n + 1 => fun r => P.rule (rules field (plain field n) r)

/-- How often a rule at the token `m` may unfold others: between two tokens the rank falls. -/
def Duo.bound (D : Duo) (m : Nat) (r : Rule) : Nat := 16 * (D.left.tokens.size - m) + r.rank

section Step

variable {D : Duo} {hi : Nat} {field field' : FieldParser} {g g' : Grammar}

theorem meets_inner {r : Rule} [Kin r.Out] (halike : r.alike = Kin.alike) {b m stop : Nat} {p q : P r.Out}
    (h : Same D g g' b 1 p q) (hw : Window D m stop) (hg : Ready D g g' b m stop) :
    Meets D m (fun a b i => r.alike a b ∧ m < i ∧ i ≤ stop) p q := halike ▸ h.meets m stop hw hg

/-- Every rule does the same if the rules it refers to do. -/
theorem meets_rules (hfield : P.FieldsMeet field field') {r : Rule} {m : Nat} {T : r.Out → r.Out → Nat → Prop}
    (h : Due D hi r m T) (hg : Poised D hi g g' r.rank m) :
    Meets D m T (rules field g r) (rules field' g' r) := by
  cases h with
  | inner hr hw =>
    have hready := hg.ready hw
    cases r
    case statements | block | elifClause => cases hr
    case strings => exact (P.same_strings hfield).meets _ _ hw hready
    all_goals
      simp only [Rule.rank] at hready
      unfold rules
      exact meets_inner rfl inferInstance hw hready
  | block S hm =>
    unfold rules
    exact Moves.meets (S := S) (z := .inside) (b := 11) _ hm hg
  | elifClause S hm =>
    unfold rules
    exact Moves.meets (S := S) (z := .edge) (b := 11) _ hm hg
  | statements S hm =>
    unfold rules
    exact Moves.meets (S := S) (z := .raised) (b := 12) _ hm hg

/-- All rules do the same at all places, unfolded `n` times in the one run and often enough in the other. -/
def Agree (D : Duo) (hi n : Nat) (g : Grammar) (g' : Nat → Grammar) : Prop :=
  ∀ m r T, Due D hi r m T → D.bound m r < n → ∀ n', D.bound m r < n' → Meets D m T (g r) (g' n' r)

theorem Agree.succ (hfield : P.FieldsMeet field field') {n : Nat} (h : Agree D hi n g (plain field')) {m : Nat} {r : Rule}
    {T : r.Out → r.Out → Nat → Prop} (hdue : Due D hi r m T) (hn : D.bound m r < n + 1) {n' : Nat}
    (hn' : D.bound m r < n') : Meets D m T (P.rule (rules field g r)) (plain field' n' r) := by
  obtain ⟨n', rfl⟩ : ∃ k, n' = k + 1 := ⟨n' - 1, by omega⟩
  have hm : m ≤ D.left.tokens.size := hdue.le
  unfold Duo.bound at *
  refine (meets_rules hfield hdue ⟨fun r' hr' T' hdue' => ?_, fun j hj r' T' hdue' => ?_⟩).rule
  · exact h m r' T' hdue' (by unfold Duo.bound; omega) n' (by unfold Duo.bound; omega)
  · have hj' := hdue'.le
    have := r'.rank_lt
    exact h j r' T' hdue' (by unfold Duo.bound; omega) n' (by unfold Duo.bound; omega)

/-- Without memory in either run. -/
theorem meets_plain (hfield : P.FieldsMeet field field') (n : Nat) :
    Agree D hi n (plain field n) (plain field') := by
  induction n with
  | zero => exact fun m r T _ h => absurd h (Nat.not_lt_zero _)
  | succ n ih => exact fun m r T hdue hn n' hn' => ih.succ hfield hdue hn hn'

end Step

/-! ## Memory -/

/-- The same runs, of whose memory something else is known. -/
def Duo.keeping (D : Duo) (kept : Array (List Entry) → Prop) : Duo := { D with kept := kept }

theorem Due.keeping {D : Duo} (kept : Array (List Entry) → Prop) {hi m : Nat} {r : Rule}
    {T : r.Out → r.Out → Nat → Prop} (h : Due D hi r m T) : Due (D.keeping kept) hi r m T := by
  have hstage (S : Stage D hi) : Stage (D.keeping kept) hi :=
    ⟨S.left_lt, S.right_lt, S.level, S.fresh, S.above, S.left_joins, S.right_joins⟩
  cases h with
  | inner hr hw => exact .inner (D := D.keeping kept) hr ⟨hw.le, hw.left_le, hw.right_le, hw.level, hw.wall⟩
  | block S hm => exact .block (hstage S) hm
  | elifClause S hm => exact .elifClause (hstage S) hm
  | statements S hm => exact .statements (hstage S) hm

theorem P.rule_ne_cut {α : Type} {p : P α} {env : Env} {st : State} (s : State) : P.rule p env st ≠ .cut s := by
  intro h
  rw [P.rule] at h
  cases hp : p env st <;> rw [hp] at h <;> cases h

section Memory

variable (D : Duo) (hi : Nat) (g' : Nat → Grammar)

/-- An entry as the reply it stands for. -/
def Parse.Entry.reply (e : Entry) : Reply e.rule.Out :=
  match e.answer with
  | some a => .ok a ⟨e.mark, 0, false, #[], []⟩
  | none => .fail ⟨e.mark, 0, false, #[], []⟩

/-- What is remembered at the token `m` is what the other run finds there. -/
def Faithful (m : Nat) (e : Entry) : Prop :=
  ∀ T, Due D hi e.rule m T → ∀ n, D.bound m e.rule < n → ∀ st, st.mark = m + D.shift →
    e.reply.Meets (D.keeping fun _ => True) T (g' n e.rule D.right st)

/-- Two runs of which the left one remembers nothing but what the right one finds. -/
def Duo.faithful : Duo := D.keeping fun memo => ∀ m, ∀ e ∈ memo.getD m [], Faithful D hi g' m e

variable {D hi g'}

theorem mem_stored {memo : Array (List Entry)} {m i : Nat} {new e : Entry}
    (h : e ∈ (memo.modify m fun es => new :: es).getD i []) : (e = new ∧ i = m) ∨ e ∈ memo.getD i [] := by
  rw [Array.getD_eq_getD_getElem?, Array.getElem?_modify] at h
  rw [Array.getD_eq_getD_getElem?]
  split at h
  · rename_i heq
    cases hes : memo[i]? with
    | none =>
      rw [hes] at h
      exact .inr h
    | some es =>
      rw [hes] at h
      rcases List.mem_cons.mp h with rfl | h
      · exact .inl ⟨rfl, heq.symm⟩
      · exact .inr h
  · exact .inr h

/-- Remembering a rule does not change what it answers. -/
theorem meets_remembered {r : Rule} {p : P r.Out} {m : Nat}
    (h : ∀ T, Due D hi r m T → ∀ n, D.bound m r < n → Meets (D.faithful hi g') m T (P.rule p) (g' n r))
    {T : r.Out → r.Out → Nat → Prop} (hdue : Due D hi r m T) {n : Nat} (hn : D.bound m r < n) :
    Meets (D.faithful hi g') m T (P.remembered r p) (g' n r) := by
  intro st st' hm hm' hk
  have hstored {answer : Option r.Out} {s : State} (hs : (D.faithful hi g').kept s.memo)
      (hnew : Faithful D hi g' st.mark ⟨r, answer, s.mark⟩) :
      (D.faithful hi g').kept (s.memo.modify st.mark fun es => ⟨r, answer, s.mark⟩ :: es) := by
    intro i e he
    rcases mem_stored he with ⟨rfl, rfl⟩ | he
    · exact hnew
    · exact hs i e he
  change (P.remembered r p D.left st).Meets (D.faithful hi g') T (g' n r D.right st')
  rw [P.remembered]
  split
  · rename_i a mark hrecall
    have hfound := hk _ _ (Keeps.answerOf_mem hrecall) T (hm ▸ hdue) n (hm ▸ hn) st' (hm ▸ hm')
    change (Reply.ok a _).Meets _ T (g' n r D.right st') at hfound
    generalize g' n r D.right st' = y at hfound ⊢
    cases hfound with
    | ok hT hmark _ => exact .ok hT hmark hk
  · rename_i mark hrecall
    have hfound := hk _ _ (Keeps.answerOf_mem hrecall) T (hm ▸ hdue) n (hm ▸ hn) st' (hm ▸ hm')
    change (Reply.fail _).Meets _ T (g' n r D.right st') at hfound
    generalize g' n r D.right st' = y at hfound ⊢
    cases hfound with
    | fail => exact .fail hk
  · have hrun := fun T hdue n hn st' hm' => h T hdue n hn st st' hm hm' hk
    have hcut : ∀ s, P.rule p D.left st ≠ .cut s := P.rule_ne_cut
    change ∀ T, Due D hi r m T → ∀ n, D.bound m r < n → ∀ st' : State, st'.mark = m + D.shift →
      (P.rule p D.left st).Meets (D.faithful hi g') T (g' n r D.right st') at hrun
    cases hx : P.rule p D.left st with
    | ok a s =>
      rw [hx] at hrun
      have hnew : Faithful D hi g' st.mark ⟨r, some a, s.mark⟩ := by
        intro T hdue n hn st' hm'
        have hfound := hrun T (hm ▸ hdue) n (hm ▸ hn) st' (hm ▸ hm')
        change (Reply.ok a _).Meets _ T (g' n r D.right st')
        generalize g' n r D.right st' = y at hfound ⊢
        cases hfound with
        | ok hT hmark _ => exact .ok hT hmark trivial
      have hfound := hrun T hdue n hn st' hm'
      generalize g' n r D.right st' = y at hfound ⊢
      cases hfound with
      | ok hT hmark hs => exact .ok hT hmark (hstored hs hnew)
    | fail s =>
      rw [hx] at hrun
      have hnew : Faithful D hi g' st.mark ⟨r, none, s.mark⟩ := by
        intro T hdue n hn st' hm'
        have hfound := hrun T (hm ▸ hdue) n (hm ▸ hn) st' (hm ▸ hm')
        change (Reply.fail _).Meets _ T (g' n r D.right st')
        generalize g' n r D.right st' = y at hfound ⊢
        cases hfound with
        | fail => exact .fail trivial
      have hfound := hrun T hdue n hn st' hm'
      generalize g' n r D.right st' = y at hfound ⊢
      cases hfound with
      | fail hs => exact .fail (hstored hs hnew)
    | cut s => exact absurd hx (hcut s)
    | stop => exact .stop ..

/-- The grammar that remembers parses like the one that does not. -/
theorem meets_grammar {field field' : FieldParser} (hfield : P.FieldsMeet field field') (n : Nat) :
    Agree (D.faithful hi (plain field')) hi n (grammar field n) (plain field') := by
  induction n with
  | zero => exact fun m r T _ h => absurd h (Nat.not_lt_zero _)
  | succ n ih =>
    intro m r T hdue hn n' hn'
    have hrule (T) (hdue : Due (D.faithful hi (plain field')) hi r m T) (n') (hn' : D.bound m r < n') :=
      ih.succ hfield hdue hn hn'
    rw [grammar]
    dsimp only
    split
    · have hdue : Due D hi r m T := Due.keeping (D := D.faithful hi (plain field')) D.kept hdue
      exact meets_remembered (fun T h => hrule T (h.keeping _)) hdue hn'
    · exact hrule T hdue n' hn'

end Memory

/-! ## Replacement fields -/

/-- A parser of replacement fields that remembers nothing. -/
def Parse.plainField (bdfl : Bool) : Nat → FieldParser
  | 0 => fun _ _ => .error default
  | n + 1 => fun text place =>
    let (env, stream) := prepare text ⟨place.line - 1, place.col, place.byte⟩ true bdfl
    match run env stream (P.starExpressions (plain (plainField bdfl n) (depth stream.tokens.size))) with
    | (.ok e, ws) => .ok (e, ws.reverse)
    | (.error r, _) => .error r

theorem Duo.bound_lt_depth (D : Duo) (m : Nat) (r : Rule) {n : Nat} (h : D.left.tokens.size ≤ n) :
    D.bound m r < depth n := by
  have := r.rank_lt
  unfold Duo.bound depth
  omega

theorem Agree.poised {D : Duo} {hi n n' m b : Nat} {g : Grammar} {g' : Nat → Grammar} (h : Agree D hi n g g')
    (hn : depth D.left.tokens.size ≤ n) (hn' : depth D.left.tokens.size ≤ n') : Poised D hi g (g' n') b m where
  here r _ T hdue := h m r T hdue (Nat.lt_of_lt_of_le (D.bound_lt_depth m r (Nat.le_refl _)) hn) n'
    (Nat.lt_of_lt_of_le (D.bound_lt_depth m r (Nat.le_refl _)) hn')
  later j _ r T hdue := h j r T hdue (Nat.lt_of_lt_of_le (D.bound_lt_depth j r (Nat.le_refl _)) hn) n'
    (Nat.lt_of_lt_of_le (D.bound_lt_depth j r (Nat.le_refl _)) hn')

/-- Where all tokens are the same, an expression ends somewhere. -/
theorem exists_window_of_level {D : Duo} (hlevel : ∀ i, Meets.Level D i)
    (hright : D.left.tokens.size ≤ D.right.tokens.size) (m : Nat) (hm : m ≤ D.left.tokens.size) :
    ∃ stop, Window D m stop := by
  by_cases hwall : ∀ t, D.left.tokens[m]? = some t → t.lexeme.isWall = true
  · exact ⟨m, Nat.le_refl m, hm, by omega, fun i _ _ => hlevel i, hwall⟩
  · have hlt : m < D.left.tokens.size := by
      refine Nat.lt_of_le_of_ne hm fun heq => hwall fun t ht => ?_
      rw [heq, Array.getElem?_size] at ht
      cases ht
    obtain ⟨stop, hw⟩ := exists_window_of_level hlevel hright (m + 1) hlt
    exact ⟨stop, { hw with le := Nat.le_of_succ_le hw.le, level := fun i _ _ => hlevel i }⟩
termination_by D.left.tokens.size - m

section Fields

variable {bdfl : Bool}

/-- The same text as it stands at two places. -/
def Duo.ofField (bdfl : Bool) (text : List Char) (p p' : Place) : Duo where
  left := (prepare text ⟨p.line - 1, p.col, p.byte⟩ true bdfl).1
  right := (prepare text ⟨p'.line - 1, p'.col, p'.byte⟩ true bdfl).1
  shift := 0
  kept _ := True
  explain := ⟨rfl, rfl⟩
  bdfl := rfl
  halt := by simp [prepare]

theorem Duo.ofField_level (text : List Char) (p p' : Place) (i : Nat) :
    Meets.Level (Duo.ofField bdfl text p p') i := by
  simp [Meets.Level, Duo.ofField, prepare, Function.comp_def, shiftToken]

/-- A field at one place is one at another, if its rules do the same. -/
theorem starExpressions_ofField {text : List Char} {p p' : Place} {kept : Array (List Entry) → Prop} {g : Grammar}
    {field' : FieldParser} {n n' : Nat} (h : Agree ((Duo.ofField bdfl text p p').keeping kept) 0 n g (plain field'))
    (hn : depth (Duo.ofField bdfl text p p').left.tokens.size ≤ n)
    (hn' : depth (Duo.ofField bdfl text p p').left.tokens.size ≤ n')
    (hkept : ∀ k, kept (Array.replicate k [])) {e : Expr} {st : State} {k k' : Nat}
    (hok : P.starExpressions g (Duo.ofField bdfl text p p').left (.initial k 0 []) = .ok e st) :
    ∃ e' st', P.starExpressions (plain field' n') (Duo.ofField bdfl text p p').right (.initial k' 0 []) = .ok e' st' ∧
      Kin.alike e e' := by
  let D := (Duo.ofField bdfl text p p').keeping kept
  have hsize : D.left.tokens.size ≤ D.right.tokens.size := by simp [D, Duo.keeping, Duo.ofField, prepare]
  obtain ⟨stop, hw⟩ := exists_window_of_level (D := D) (Duo.ofField_level text p p') hsize 0 (Nat.zero_le _)
  have hsame : Same D g (plain field' n') 13 1 (P.starExpressions g) (P.starExpressions (plain field' n')) :=
    inferInstanceAs (Same D g (plain field' n') (3 + 10) 1 _ _)
  have hmeets := hsame.meets 0 stop hw ((h.poised hn hn').ready hw) (.initial k 0 []) (.initial k' 0 []) rfl rfl
    (hkept _)
  change (P.starExpressions g (Duo.ofField bdfl text p p').left _).Meets D _ _ at hmeets
  rw [hok] at hmeets
  generalize hy : P.starExpressions _ D.right _ = y at hmeets
  cases hmeets with
  | ok h => exact ⟨_, _, hy, h.1⟩

/-- What a run answers, with its warnings. -/
theorem field_ok {env : Env} {stream : TokenStream} {p : P Expr} {e : Expr} {ws : List Warning} (h :
    (match run env stream p with
      | (.ok e, ws) => Except.ok (e, ws.reverse)
      | (.error r, _) => .error r) = .ok (e, ws)) : ∃ st, p env (.initial stream.tokens.size 0 []) = .ok e st := by
  refine (run_ok env stream p e).mp ?_
  split at h
  case h_1 e' ws' hrun =>
    obtain ⟨rfl, -⟩ := Prod.mk.inj (Except.ok.inj h)
    rw [hrun]
  case h_2 => cases h

theorem field_of_ok {env : Env} {stream : TokenStream} {p : P Expr} {e : Expr} {st : State}
    (h : p env (.initial stream.tokens.size 0 []) = .ok e st) : ∃ ws,
      (match run env stream p with
        | (.ok e, ws) => Except.ok (e, ws.reverse)
        | (.error r, _) => .error r) = .ok (e, ws) := by
  have hrun := (run_ok env stream p e).mpr ⟨st, h⟩
  generalize run env stream p = x at hrun
  obtain ⟨_ | e', ws⟩ := x
  · cases hrun
  · obtain rfl := Except.ok.inj hrun
    exact ⟨_, rfl⟩

theorem kept_initial {D : Duo} {hi : Nat} {g' : Nat → Grammar} (k : Nat) :
    (D.faithful hi g').kept (Array.replicate k []) := by
  intro m e he
  rw [Array.getD_eq_getD_getElem?, Array.getElem?_replicate] at he
  split at he <;> cases he

theorem Duo.ofField_size (text : List Char) (p p' : Place) :
    (Duo.ofField bdfl text p p').left.tokens.size = (Duo.ofField bdfl text p p').right.tokens.size := by
  simp [Duo.ofField, prepare]

theorem plainField_meets (n : Nat) : P.FieldsMeet (plainField bdfl n) (plainField bdfl n) := by
  induction n with
  | zero => exact fun text p p' e ws h => nomatch h
  | succ n ih =>
    intro text p p' e ws h
    obtain ⟨st, hok⟩ := field_ok h
    let D := Duo.ofField bdfl text p p'
    have hagree (k : Nat) : Agree (D.keeping fun _ => True) 0 k (plain (plainField bdfl n) k) (plain (plainField bdfl n)) :=
      meets_plain ih k
    obtain ⟨e', st', hok', he⟩ := starExpressions_ofField (hagree _) (Nat.le_refl _)
      (Nat.le_of_eq (congrArg depth (Duo.ofField_size text p p'))) (fun _ => trivial) hok
    obtain ⟨ws', h'⟩ := field_of_ok hok'
    exact ⟨e', ws', h', he⟩

/-- What a field is does not depend on memory, nor on how deep fields may nest once that is deep enough. -/
theorem fieldParser_meets {n n' : Nat} (h : n ≤ n') : P.FieldsMeet (fieldParser bdfl n) (plainField bdfl n') := by
  induction n generalizing n' with
  | zero => exact fun text p p' e ws h => nomatch h
  | succ n ih =>
    obtain ⟨n', rfl⟩ : ∃ k, n' = k + 1 := ⟨n' - 1, by omega⟩
    intro text p p' e ws hfield
    obtain ⟨st, hok⟩ := field_ok hfield
    let D := Duo.ofField bdfl text p p'
    have hagree (k : Nat) : Agree (D.faithful 0 (plain (plainField bdfl n'))) 0 k (grammar (fieldParser bdfl n) k)
        (plain (plainField bdfl n')) := meets_grammar (ih (Nat.le_of_succ_le_succ h)) k
    obtain ⟨e', st', hok', he⟩ := starExpressions_ofField (hagree _) (Nat.le_refl _)
      (Nat.le_of_eq (congrArg depth (Duo.ofField_size text p p'))) (fun k => kept_initial k) hok
    obtain ⟨ws', h'⟩ := field_of_ok hok'
    exact ⟨e', ws', h', he⟩

end Fields

end Evalbox.Lang
