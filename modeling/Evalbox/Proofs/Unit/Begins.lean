import Evalbox.Proofs.Lang.Leading
import Evalbox.Proofs.Unit.Orderly

/-!
# What stands in front of a statement

A statement of a program that is an expression begins with one of its tokens, and in front of that token a row, a block
or a statement ends (`led_of_parse`). The program is read twice, the second time without memory: what holds of both runs
is known from how statements do the same (`Moves`).
-/

namespace Evalbox

open Text Lang Lang.Parse Scanner

/-- Tokens that part statements. -/
def Lang.Lexeme.parts : Lexeme → Bool
  | .newline | .dedent | .symbol .semi => true
  | _ => false

/-- Nothing stands in front of a place, or a token that parts statements. -/
def PartedAt (tokens : Array Token) (i : Nat) : Prop :=
  ∀ k, k + 1 = i → ∃ t, tokens[k]? = some t ∧ t.lexeme.parts = true

/-- A statement that is an expression begins with a token in front of which statements are parted. -/
def Lang.Stmt.Led (tokens : Array Token) (s : Stmt) : Prop := ∀ span e, s = .expr span e →
  ∃ i t, tokens[i]? = some t ∧ t.lexeme.begins = true ∧ span.start = (P.spanOf t).start ∧ PartedAt tokens i

theorem Lang.Lexeme.parts_of_ends {l : Lexeme} (h : l.ends = true) : l.parts = true := by
  cases l <;> first | rfl | cases h

section Runs

variable {D : Duo} {hi m : Nat} {S : Stage D hi} {g g' : Grammar} {α β : Type}

theorem Lang.Meets.and {T T' : α → α → Nat → Prop} {p q : P α} (h : Meets D m T p q) (h' : Meets D m T' p q) :
    Meets D m (fun a b i => T a b i ∧ T' a b i) p q := by
  intro st st' hm hm' hk
  have h := h st st' hm hm' hk
  have h' := h' st st' hm hm' hk
  generalize p D.left st = x at h h' ⊢
  generalize q D.right st' = y at h h' ⊢
  cases h with
  | ok h hmark hkept =>
    cases h' with
    | ok h' => exact .ok ⟨h, h'⟩ hmark hkept
  | fail hkept => exact .fail hkept
  | cut hkept => exact .cut hkept
  | stop => exact .stop ..

/-- What is known of the answers of either run. -/
theorem Lang.Meets.answers {T : α → α → Nat → Prop} {p q : P α} {φ ψ : α → Prop} (h : Meets D m T p q)
    (hp : ∀ st a st', st.mark = m → p D.left st = .ok a st' → φ a)
    (hq : ∀ st a st', st.mark = m + D.shift → q D.right st = .ok a st' → ψ a) :
    Meets D m (fun a b i => T a b i ∧ φ a ∧ ψ b) p q := by
  intro st st' hm hm' hk
  have h := h st st' hm hm' hk
  generalize hx : p D.left st = x at h ⊢
  generalize hy : q D.right st' = y at h ⊢
  cases h with
  | ok h hmark hkept => exact .ok ⟨h, hp _ _ _ hm hx, hq _ _ _ hm' hy⟩ hmark hkept
  | fail hkept => exact .fail hkept
  | cut hkept => exact .cut hkept
  | stop => exact .stop ..

end Runs

section Statements

/-- What is known of the first of two lists of answers. -/
theorem forall_of_kin {α : Type} {φ : α → Prop} {as bs : List α} (h : List.Forall₂ (fun a _ => φ a) as bs) :
    ∀ a ∈ as, φ a := by
  induction h with
  | nil => exact List.forall_mem_nil φ
  | cons ha _ ih => exact List.forall_mem_cons.mpr ⟨ha, ih⟩

open P Moves

set_option synthInstance.maxSize 2000

variable {D : Duo} {hi m : Nat} {g g' : Grammar} (S : Stage D hi)
include S

/-- A simple statement, one run of which remembers nothing. -/
theorem meets_led_simple {n n' : Nat} {field field' : FieldParser} (hright : D.right = D.left) (hshift : D.shift = 0)
    (hg : g .simpleStatement = P.rule (simpleStatement (grammar field n)))
    (hg' : g' .simpleStatement = plain field' n' .simpleStatement) (hm : m < hi) (hparted : PartedAt D.left.tokens m)
    (hposed : Poised D hi g g' 13 m) :
    Meets D m (fun s _ i => s.Led D.left.tokens ∧ m < i ∧ i < hi) (g .simpleStatement) (g' .simpleStatement) := by
  obtain ⟨stop, hw, hstop, -⟩ := S.exists_window m hm
  have hsame : Same D g g' (2 + 11) 1 (g .simpleStatement) (g' .simpleStatement) := inferInstance
  have hleft (st : State) (s : Stmt) (st' : State) (hst : st.mark = m) (h : g .simpleStatement D.left st = .ok s st') :
      ∀ span e, s = .expr span e → ∃ t, D.left.tokens[m]? = some t ∧ span.start = (spanOf t).start := by
    rintro span e rfl
    rw [hg] at h
    obtain ⟨t, ht, -, hstart⟩ := start_of_simpleStatement D.explain.1 (rule_ok h)
    exact ⟨t, hst ▸ ht, hstart⟩
  have hright' (st : State) (s : Stmt) (st' : State) (hst : st.mark = m + D.shift)
      (h : g' .simpleStatement D.right st = .ok s st') : ∃ t, D.left.tokens[m]? = some t ∧ t.lexeme.begins = true := by
    rw [hg'] at h
    have hbegins := begins_of_simpleStatement D.explain.2 h
    rwa [hst, hshift, hright] at hbegins
  refine ((hsame.meets m stop hw (hposed.ready hw)).answers hleft hright').mono fun s s' i h => ?_
  obtain ⟨⟨-, hmi, hle⟩, hexpr, t, ht, hbegins⟩ := h
  refine ⟨fun span e hs => ?_, hmi, by omega⟩
  obtain ⟨t', ht', hstart⟩ := hexpr span e hs
  obtain rfl := Option.some.inj (ht.symm.trans ht')
  exact ⟨m, t, ht, hbegins, hstart, hparted⟩

/-- The runs answer statements that are led, each in front of a token of the program. -/
theorem meets_led_row (hsimple : ∀ i, m ≤ i → i < hi → PartedAt D.left.tokens i →
      Meets D i (fun s _ j => s.Led D.left.tokens ∧ i < j ∧ j < hi) (g .simpleStatement) (g' .simpleStatement))
    (hm : m < hi) (hparted : PartedAt D.left.tokens m) :
    Meets D m (fun ss _ _ => ∀ s ∈ ss, s.Led D.left.tokens) (simpleStatements g) (simpleStatements g') := by
  have hsemi {i : Nat} (hi' : i < hi) : Meets D i (fun _ _ j => j = i + 1 ∧ j < hi ∧ PartedAt D.left.tokens j)
      (symbol .semi) (symbol .semi) := by
    have halike : ∀ t u : Token, t.lexeme = u.lexeme →
        Kin.alike (if t.lexeme = .symbol .semi then some (P.spanOf t) else none)
          (if u.lexeme = .symbol .semi then some (P.spanOf u) else none) := by
      intro t u htu
      rw [htu]
      split
      · exact .some trivial
      · exact .none
    refine (S.take halike hi').mono fun a a' j h => ?_
    obtain ⟨-, rfl, t, ht, hfa⟩ := h
    have hlex := (Option.ite_none_right_eq_some.mp hfa).1
    refine ⟨rfl, S.succ_lt hi' ht (by rw [hlex]; rfl), fun k hk => ?_⟩
    obtain rfl := Nat.succ.inj hk
    exact ⟨t, ht, by rw [hlex]; rfl⟩
  have hnewline {i : Nat} (hi' : i < hi) : Meets D i (fun _ _ _ => True) (lexeme .newline) (lexeme .newline) :=
    (S.take (Same.lexeme_alike .newline) hi').mono fun _ _ _ _ => trivial
  refine .orElse ?_ ?_
  · refine (hsimple m (Nat.le_refl m) hm hparted).bind fun s s' i h => ?_
    refine ((hsemi h.2.2).notAhead (U := fun _ _ j => j < hi) h.2.2).bind fun _ _ j hj => ?_
    exact (hnewline hj).bind fun _ _ _ _ => .pure (List.forall_mem_singleton.mpr h.1)
  · have hmany (i : Nat) (hmi : m ≤ i) (hi' : i < hi) :
        Meets D i (fun ss _ j => (∀ s ∈ ss, s.Led D.left.tokens) ∧ j < hi)
          (do let _ ← symbol .semi; g .simpleStatement : P Stmt).many
          (do let _ ← symbol .semi; g' .simpleStatement : P Stmt).many := by
      let _ : Kin Stmt := ⟨fun s _ => s.Led D.left.tokens⟩
      have hstep (k : Nat) (hk : m ≤ k ∧ k < hi) : Meets D k (fun s s' j => Kin.alike s s' ∧ k < j ∧ m ≤ j ∧ j < hi)
          (do let _ ← symbol .semi; g .simpleStatement : P Stmt)
          (do let _ ← symbol .semi; g' .simpleStatement : P Stmt) := by
        refine (hsemi hk.2).bind fun _ _ j hj => ?_
        obtain ⟨rfl, hlt, hparted⟩ := hj
        exact (hsimple _ (by omega) hlt hparted).mono fun _ _ _ h => ⟨h.1, by omega, by omega, h.2.2⟩
      have htop (k : Nat) (hk : m ≤ k ∧ k < hi) : k ≤ hi := Nat.le_of_lt hk.2
      have hright : hi ≤ D.right.tokens.size := Nat.le_trans (Nat.le_add_right _ _) (Nat.le_of_lt S.right_lt)
      exact (Meets.many hstep htop (Nat.le_of_lt S.left_lt) hright ⟨hmi, hi'⟩).mono fun _ _ _ h =>
        ⟨forall_of_kin h.1, h.2.2.2⟩
    have hsep : Meets D m (fun ss _ j => (∀ s ∈ ss, s.Led D.left.tokens) ∧ j < hi)
        (sepBy1 (g .simpleStatement) (symbol .semi)) (sepBy1 (g' .simpleStatement) (symbol .semi)) :=
      (hsimple m (Nat.le_refl m) hm hparted).bind fun s s' i h => (hmany i (by omega) h.2.2).bind fun ss ss' j hj =>
        .pure ⟨List.forall_mem_cons.mpr ⟨h.1, hj.1⟩, hj.2⟩
    refine hsep.bind fun ss ss' i h => ?_
    refine ((hsemi h.2).optional (U := fun _ _ j => j < hi) (fun _ _ _ hj => hj.2.1) h.2).bind fun _ _ j hj => ?_
    exact (hnewline hj).bind fun _ _ _ _ => .pure h.1

/-- Statements on lines of their own, at the begin of a line. -/
theorem meets_led_group (hsimple : ∀ i, m ≤ i → i < hi → PartedAt D.left.tokens i →
      Meets D i (fun s _ j => s.Led D.left.tokens ∧ i < j ∧ j < hi) (g .simpleStatement) (g' .simpleStatement))
    (hposed : Poised D hi g g' 13 m) (hm : m < hi) (hfresh : D.left.Fresh m) :
    Meets D m (fun ss _ j => (∀ s ∈ ss, s.Led D.left.tokens) ∧ m < j ∧ Zone.edge.Has D hi j)
      ((do return [← rule (compoundStatement g)]) <|> rule (simpleStatements g))
      ((do return [← rule (compoundStatement g')]) <|> rule (simpleStatements g')) := by
  have hparted : PartedAt D.left.tokens m := fun k hk => by
    obtain ⟨t, ht, hends⟩ := hfresh k hk
    exact ⟨t, ht, Lexeme.parts_of_ends hends⟩
  have hcompound : Moves S g g' 13 .inside 1 .edge (compoundStatement g) (compoundStatement g') := inferInstance
  have hother : Meets D m (fun s _ _ => s.Led D.left.tokens) (compoundStatement g) (compoundStatement g') :=
    ((hcompound.meets m hm hposed).answers (φ := Stmt.Other) (ψ := fun _ => True)
      (fun st s st' _ h => compoundStatement_other D.explain.1 st s st' h) fun _ _ _ _ _ => trivial).mono
      fun _ _ _ h span e hs => absurd hs (h.2.1 span e)
  have hgroup : Moves S g g' 13 .inside 1 .edge
      ((do return [← rule (compoundStatement g)]) <|> rule (simpleStatements g))
      ((do return [← rule (compoundStatement g')]) <|> rule (simpleStatements g')) :=
    inferInstanceAs (Moves S g g' (2 + 11) .inside 1 .edge _ _)
  have hled : Meets D m (fun ss _ _ => ∀ s ∈ ss, s.Led D.left.tokens)
      ((do return [← rule (compoundStatement g)]) <|> rule (simpleStatements g))
      ((do return [← rule (compoundStatement g')]) <|> rule (simpleStatements g')) :=
    .orElse (hother.rule.bind fun _ _ _ h => .pure (List.forall_mem_singleton.mpr h))
      (meets_led_row S hsimple hm hparted).rule
  exact ((hgroup.meets m hm hposed).and hled).mono fun _ _ _ h => ⟨h.2, h.1.2.1, h.1.2.2.1⟩

/-- In front of a token that no expression begins with there is no statement, unless it is a word. -/
theorem meets_no_group {T : List Stmt → List Stmt → Nat → Prop} (hm : m ≤ hi) (hposed : Poised D hi g g' 13 m)
    (hlevel : Meets.Level D m) (hwall : ∀ t, D.left.tokens[m]? = some t → t.lexeme.isWall = true) :
    Meets D m T ((do return [← rule (compoundStatement g)]) <|> rule (simpleStatements g))
      ((do return [← rule (compoundStatement g')]) <|> rule (simpleStatements g')) := by
  have hw : Window D m m := ⟨Nat.le_refl m, by have := S.left_lt; omega, by have := S.right_lt; omega,
    fun i hi₁ hi₂ => Nat.le_antisymm hi₁ hi₂ ▸ hlevel, hwall⟩
  have hready := hposed.ready hw
  have hfalse {α : Type} [Kin α] {p p' : P α} (hp : Same D g g' 13 1 p p') : Meets D m (fun _ _ _ => False) p p' :=
    (hp.meets m m hw hready).mono fun a b i h => absurd h.2.2 (by omega)
  have hnone {α β : Type} [Kin α] {p p' : P α} {f f' : α → P β} {T : β → β → Nat → Prop}
      (hp : Same D g g' 13 1 p p') : Meets D m T (p >>= f) (p' >>= f') := (hfalse hp).bind fun _ _ _ h => h.elim
  have hcompound : Meets D m (fun _ _ _ => False) (compoundStatement g) (compoundStatement g') := by
    unfold compoundStatement
    refine (Meets.token hlevel).bind fun t u i h => ?_
    obtain ⟨htu, rfl, ht⟩ := h
    have hwall := hwall t ht
    dsimp only
    rw [← htu]
    split
    all_goals try
      rename_i hl
      rw [hl] at hwall
      cases hwall
    refine .orElse .fail (.rule ?_)
    unfold matchStatement
    refine .orElse ?_ (hfalse inferInstance)
    have hstart : Same D g g' 13 0 P.start P.start := inferInstance
    refine (hstart.meets _ _ hw hready).bind fun a a' i h => ?_
    obtain rfl := Nat.le_antisymm h.2.2 (by omega)
    refine Meets.bind (T := fun _ _ _ => False) ?_ fun _ _ _ h => h.elim
    exact hnone inferInstance
  have hsimple : Same D g g' 13 1 (g .simpleStatement) (g' .simpleStatement) :=
    inferInstanceAs (Same D g g' (2 + 11) 1 _ _)
  refine .orElse (hcompound.rule.bind fun _ _ _ h => h.elim) (.rule (.orElse (hnone hsimple) ?_))
  exact Meets.bind (T := fun _ _ _ => False) (hnone hsimple) fun _ _ _ h => h.elim

/-- All statements of a program are led. -/
theorem meets_led_statements (hsimple : ∀ i, i < hi → PartedAt D.left.tokens i →
      Meets D i (fun s _ j => s.Led D.left.tokens ∧ i < j ∧ j < hi) (g .simpleStatement) (g' .simpleStatement))
    (hposed : ∀ i, Poised D hi g g' 13 i) (hlevel : Meets.Level D hi)
    (hfinish : ∀ t, D.left.tokens[hi]? = some t → t.lexeme = .finish) :
    Meets D 0 (fun ss _ _ => ∀ s ∈ ss, s.Led D.left.tokens) (statements g) (statements g') := by
  have hgroup (i : Nat) (hi' : Zone.edge.Has D hi i) :
      Meets D i (fun ss _ j => (∀ s ∈ ss, s.Led D.left.tokens) ∧ i < j ∧ Zone.edge.Has D hi j)
        ((do return [← rule (compoundStatement g)]) <|> rule (simpleStatements g))
        ((do return [← rule (compoundStatement g')]) <|> rule (simpleStatements g')) := by
    rcases Nat.eq_or_lt_of_le hi'.1 with rfl | hlt
    · exact meets_no_group S (Nat.le_refl _) (hposed _) hlevel fun t ht => by rw [hfinish t ht]; rfl
    · exact meets_led_group S (fun j _ hj => hsimple j hj) (hposed i) hlt hi'.2
  have hedge : Zone.edge.Has D hi 0 := ⟨Nat.zero_le hi, fun k hk => absurd hk (Nat.succ_ne_zero k)⟩
  have hmany (i : Nat) (hi' : Zone.edge.Has D hi i) :
      Meets D i (fun groups _ _ => ∀ ss ∈ groups, ∀ s ∈ ss, s.Led D.left.tokens)
        ((do return [← rule (compoundStatement g)]) <|> rule (simpleStatements g)).many
        ((do return [← rule (compoundStatement g')]) <|> rule (simpleStatements g')).many := by
    let _ : Kin (List Stmt) := ⟨fun ss _ => ∀ s ∈ ss, s.Led D.left.tokens⟩
    have htop (k : Nat) (hk : Zone.edge.Has D hi k) : k ≤ hi := hk.1
    have hright : hi ≤ D.right.tokens.size := Nat.le_trans (Nat.le_add_right _ _) (Nat.le_of_lt S.right_lt)
    exact (Meets.many hgroup htop (Nat.le_of_lt S.left_lt) hright hi').mono fun _ _ _ h => forall_of_kin h.1
  unfold statements
  refine Meets.bind (T := fun groups _ _ => ∀ ss ∈ groups, ∀ s ∈ ss, s.Led D.left.tokens) ?_
    fun groups _ _ h => .pure ?_
  · exact (hgroup 0 hedge).bind fun ss _ i h => (hmany i h.2.2).bind fun _ _ _ h' =>
      .pure (List.forall_mem_cons.mpr ⟨h.1, h'⟩)
  · intro s hs
    obtain ⟨ss, hss, hs⟩ := List.mem_flatten.mp hs
    exact h ss hss s hs

end Statements

section Layout

variable {ls : List Lexeme} {last : Option Lexeme} {depth : Nat}

/-- How many levels are open behind tokens, `n` in front of them. -/
def levelsAfter (n : Int) (ls : List Lexeme) : Int := ls.foldl (fun n l => n + l.rise) n

theorem Lang.Parse.Env.height_eq {env : Env} (h : ∀ i < ls.length, env.tokens[i]?.map (·.lexeme) = ls[i]?) (i : Nat)
    (hi : i ≤ ls.length) : env.height i = levelsAfter 0 (ls.take i) := by
  induction i with
  | zero => rfl
  | succ i ih =>
    obtain ⟨t, ht, hl⟩ := Option.map_eq_some_iff.mp ((h i hi).trans (List.getElem?_eq_getElem hi))
    rw [Env.height_succ ht, ih (Nat.le_of_succ_le hi), List.take_add_one, List.getElem?_eq_getElem hi, ← hl,
      levelsAfter, levelsAfter, List.foldl_append]
    rfl

/-- A level is open for each indent without its dedent, and none is at the end. -/
theorem Orderly.levels (h : Orderly last depth ls) :
    (∀ i, 0 ≤ levelsAfter depth (ls.take i)) ∧ levelsAfter depth ls = 0 := by
  induction ls generalizing last depth with
  | nil =>
    obtain ⟨rfl, -⟩ := h
    exact ⟨fun i => by rw [List.take_nil]; exact Int.le_refl 0, rfl⟩
  | cons l ls ih =>
    obtain ⟨hdedent, -, h⟩ := h
    have hdepth : (deepened depth l : Int) = depth + l.rise := by
      cases l with
      | dedent =>
        have := hdedent rfl
        simp only [deepened, Lexeme.rise]
        omega
      | indent => rfl
      | _ => exact (Int.add_zero _).symm
    obtain ⟨hpos, hzero⟩ := ih h
    rw [hdepth] at hpos hzero
    refine ⟨fun i => ?_, hzero⟩
    cases i with
    | zero => exact Int.natCast_nonneg depth
    | succ i => exact hpos i

/-- At the end a row or a block ends. -/
theorem Orderly.closed (h : Orderly last depth ls) : Closed (ls.getLast?.or last) := by
  induction ls generalizing last depth with
  | nil => exact h.2
  | cons l ls ih =>
    have := ih h.2.2
    cases ls with
    | nil => exact this
    | cons l' ls => rwa [List.getLast?_cons_cons]

end Layout

section Program

variable {text : List Char} {ls : List Lexeme} {body : List Stmt}

/-- A program that is read twice. -/
def Lang.Duo.twice (text : List Char) : Duo where
  left := (prepare text ⟨0, 0, 0⟩ false false).1
  right := (prepare text ⟨0, 0, 0⟩ false false).1
  shift := 0
  kept _ := True
  explain := ⟨rfl, rfl⟩
  bdfl := rfl
  halt := rfl

theorem getElem?_tokens (h : TokenStream.lexemes text = ls ++ [.finish]) (i : Nat) :
    (TokenStream.ofText text).tokens[i]?.map (·.lexeme) = (ls ++ [.finish])[i]? := by
  rw [← h, TokenStream.lexemes, List.getElem?_map, Array.getElem?_toList]

theorem finish_of_getElem? (h : TokenStream.lexemes text = ls ++ [.finish]) {t : Token}
    (ht : (TokenStream.ofText text).tokens[ls.length]? = some t) : t.lexeme = .finish := by
  have hl := getElem?_tokens h ls.length
  rw [List.getElem?_append_right (Nat.le_refl _), Nat.sub_self, ht] at hl
  exact Option.some.inj hl

/-- The end of its tokens ends all statements of a program. -/
theorem stage_twice (h : TokenStream.lexemes text = ls ++ [.finish]) (ho : Orderly none 0 ls) :
    Stage (Duo.twice text) ls.length := by
  have hsize : (TokenStream.ofText text).tokens.size = ls.length + 1 := by
    have hlen := congrArg List.length h
    rwa [TokenStream.lexemes, List.length_map, Array.length_toList, List.length_append] at hlen
  have hlexeme (i : Nat) (hi : i < ls.length) : (Duo.twice text).left.tokens[i]?.map (·.lexeme) = ls[i]? :=
    (getElem?_tokens h i).trans (List.getElem?_append_left hi)
  have hfinish (t : Token) (ht : (Duo.twice text).left.tokens[ls.length]? = some t) : t.lexeme.joins = false := by
    rw [finish_of_getElem? h ht]
  have hlt : ls.length < (Duo.twice text).left.tokens.size := hsize ▸ Nat.lt_succ_self _
  refine ⟨hlt, hlt, fun i _ => rfl, fun k hk => ?_, fun i hi => ?_, hfinish, hfinish⟩
  · obtain ⟨t, ht, hl⟩ := Option.map_eq_some_iff.mp
      ((hlexeme k (by omega)).trans (List.getElem?_eq_getElem (by omega)))
    refine ⟨t, ht, ho.closed _ ?_⟩
    rw [List.getLast?_eq_getElem?, ← hk, Nat.add_sub_cancel, List.getElem?_eq_getElem (by omega), ← hl]
    rfl
  · rw [Env.height_eq hlexeme _ (Nat.le_refl _), Env.height_eq hlexeme _ (Nat.le_of_lt hi), List.take_length]
    exact ho.levels.2.trans_le (ho.levels.1 i)

/-- The program is read with memory first, and then without. -/
def Lang.Duo.recalling (text : List Char) (n : Nat) : Duo :=
  (Duo.twice text).faithful n (plain (plainField false text.length))

theorem stage_recalling (h : TokenStream.lexemes text = ls ++ [.finish]) (ho : Orderly none 0 ls) :
    Stage (Duo.recalling text ls.length) ls.length :=
  have S := stage_twice h ho
  ⟨S.left_lt, S.right_lt, S.level, S.fresh, S.above, S.left_joins, S.right_joins⟩

/-- What the statements of a program have in common with those that are read without memory. -/
theorem run_of_parse {T : List Stmt → List Stmt → Nat → Prop} (h : (parse text false).1 = .ok body) (hne : body ≠ [])
    (n : Nat) (hT : ∀ (g g' : Grammar) (k k' : Nat),
      g .simpleStatement = P.rule (P.simpleStatement (grammar (fieldParser false text.length) k)) →
      g' .simpleStatement = plain (plainField false text.length) k' .simpleStatement →
      (∀ m, Poised (Duo.recalling text n) n g g' 13 m) →
        Meets (Duo.recalling text n) 0 T (P.statements g) (P.statements g')) :
    ∃ b k st, P.statements (plain (plainField false text.length) k) (Duo.recalling text n).right (.initial 0 0 []) =
      .ok b st ∧ T body b st.mark := by
  obtain ⟨-, st, h⟩ := parse_ok.mp h
  obtain ⟨ss, st₁, hss, h⟩ := P.bind_ok h
  obtain ⟨u, st₂, -, h⟩ := P.bind_ok h
  obtain ⟨rfl, -⟩ := Reply.ok.inj h
  rcases P.optional_ok hss with ⟨rfl, -⟩ | ⟨b, rfl, hb⟩
  · exact absurd rfl hne
  obtain ⟨k, hk⟩ : ∃ k, Parse.depth (TokenStream.ofText text).tokens.size = k + 2 := ⟨_, rfl⟩
  rw [grammarOf, hk] at hb
  have hagree : Lang.Agree (Duo.recalling text n) n (k + 1) (grammar (fieldParser false text.length) (k + 1))
      (plain (plainField false text.length)) := meets_grammar (fieldParser_meets (Nat.le_refl _)) (k + 1)
  have hbound (m : Nat) (r : Rule) : (Duo.recalling text n).bound m r < k + 1 := by
    have := r.rank_lt
    have hsize : (Duo.recalling text n).left.tokens.size = (TokenStream.ofText text).tokens.size := rfl
    unfold Duo.bound
    unfold Parse.depth at hk
    omega
  have hmeets := hT (grammar (fieldParser false text.length) (k + 1)) (plain (plainField false text.length) (k + 1))
    k (k + 1) rfl rfl (fun m =>
      ⟨fun r _ T hdue => hagree m r T hdue (hbound m r) _ (hbound m r),
        fun j _ r T hdue => hagree j r T hdue (hbound j r) _ (hbound j r)⟩)
    (.initial (TokenStream.ofText text).tokens.size 0 []) (.initial 0 0 []) rfl rfl (kept_initial _)
  rw [show P.statements _ (Duo.recalling text n).left _ = _ from P.rule_ok hb] at hmeets
  generalize hy : P.statements _ (Duo.recalling text n).right _ = y at hmeets
  cases hmeets with
  | @ok _ _ s t h hmark => exact ⟨_, _, _, hy, hmark.symm ▸ h⟩

/-- A statement of a program that is an expression begins with a token in front of which statements are parted. -/
theorem led_of_parse (h : (parse text false).1 = .ok body) (hls : TokenStream.lexemes text = ls ++ [.finish])
    (ho : Orderly none 0 ls) : ∀ s ∈ body, s.Led (TokenStream.ofText text).tokens := by
  intro s hs
  have S := stage_recalling hls ho
  obtain ⟨-, -, -, -, hled⟩ := run_of_parse h (List.ne_nil_of_mem hs) ls.length fun _ _ _ _ hg hg' hposed =>
    meets_led_statements S (fun i hi hparted => meets_led_simple S rfl rfl hg hg' hi hparted (hposed i)) hposed rfl
      fun _ ht => finish_of_getElem? hls ht
  exact hled s hs

/-- No program begins with layout. -/
theorem head_of_parse (h : (parse text false).1 = .ok body) (hne : body ≠ [])
    (hls : TokenStream.lexemes text = ls ++ [.finish]) (ho : Orderly none 0 ls) :
    ∃ l, ls.head? = some l ∧ l.isWall = false := by
  have S := stage_recalling hls ho
  refine Classical.byContradiction fun hnone => ?_
  have hwall (t : Token) (ht : (Duo.recalling text ls.length).left.tokens[0]? = some t) : t.lexeme.isWall = true := by
    have hl := getElem?_tokens hls 0
    rw [show (TokenStream.ofText text).tokens[0]? = some t from ht] at hl
    cases ls with
    | nil =>
      have hl : t.lexeme = .finish := Option.some.inj hl
      rw [hl]
      rfl
    | cons l ls =>
      have hl : t.lexeme = l := Option.some.inj hl
      exact Bool.of_not_eq_false fun hw => hnone ⟨l, rfl, hl ▸ hw⟩
  obtain ⟨-, -, -, -, hfalse⟩ := run_of_parse (T := fun _ _ _ => False) h hne ls.length fun _ _ _ _ _ _ hposed =>
    have hgroup := meets_no_group (T := fun _ _ _ => False) S (Nat.zero_le _) (hposed 0) rfl hwall
    Meets.bind (T := fun _ _ _ => False) (Meets.bind (T := fun _ _ _ => False) hgroup fun _ _ _ h => h.elim)
      fun _ _ _ h => h.elim
  exact hfalse

end Program

end Evalbox
