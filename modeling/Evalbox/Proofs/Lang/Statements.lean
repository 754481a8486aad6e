import Evalbox.Proofs.Lang.Grammar

/-!
# Where statements begin

A statement that is an expression begins where one of its tokens begins (`begun_of_parse`). Only expressions are traced
back: every other form of statement keeps its form through the grammar (`Stmt.Other`).
-/

namespace Evalbox.Lang

open Parse

/-- A statement that is no expression. -/
def Stmt.Other (s : Stmt) : Prop := ∀ span e, s ≠ .expr span e

/-- A statement that is an expression begins where a token begins. -/
def Stmt.Begun (tokens : Array Token) (s : Stmt) : Prop :=
  ∀ span e, s = .expr span e → ∃ t ∈ tokens, P.isLayout t.lexeme = false ∧ span.start = (P.spanOf t).start

theorem Stmt.Other.begun {s : Stmt} (tokens : Array Token) (h : s.Other) : s.Begun tokens :=
  fun span e heq => absurd heq (h span e)

namespace P

variable {α : Type} {p : P α} {env : Env} {st st' : State} {g : Grammar}

theorem notAhead_ok {u : Unit} (h : notAhead p env st = .ok u st') :
    st'.mark = st.mark ∧ ∀ a st₁, p env st ≠ .ok a st₁ := by
  rw [notAhead] at h
  split at h
  case h_1 => cases h
  case h_4 => cases h
  all_goals
    obtain ⟨-, rfl⟩ := Reply.ok.inj h
    refine ⟨rfl, fun a st₁ hp => ?_⟩
    simp_all

/-- A node begins with the token at hand. -/
theorem spanned_ok {q : P (Span → α)} {a : α} (h : spanned q env st = .ok a st') : ∃ t st₁ f st₂ sp,
    env.tokens[st.mark]? = some t ∧ st₁.mark = st.mark ∧ q env st₁ = .ok f st₂ ∧ sp.start = (spanOf t).start ∧
      a = f sp := by
  obtain ⟨place, st₁, hplace, h⟩ := bind_ok h
  obtain ⟨t, st₀, ht, hplace⟩ := bind_ok hplace
  obtain ⟨rfl, rfl⟩ := Reply.ok.inj hplace
  obtain ⟨f, st₂, hf, h⟩ := bind_ok h
  obtain ⟨sp, st₃, hsp, h⟩ := bind_ok h
  obtain ⟨rfl, -⟩ := Reply.ok.inj h
  obtain ⟨hspan, -⟩ := Reply.ok.inj hsp
  obtain ⟨ht, hmark⟩ := token_ok ht
  exact ⟨t, st₀, f, st₂, sp, ht, hmark, hf, hspan ▸ rfl, rfl⟩

theorem Answers.spanned {φ : α → Prop} {q : P (Span → α)} (hq : Answers env q fun f => ∀ sp, φ (f sp)) :
    Answers env (P.spanned q) φ := by
  intro st a st' h
  obtain ⟨t, st₁, f, st₂, sp, -, -, hf, -, rfl⟩ := spanned_ok h
  exact hq _ _ _ hf sp

section Other

/-! Statements that are no expressions. -/

variable (henv : env.explain = false)

include henv

theorem assignment_other : Answers env (assignment g) Stmt.Other := by
  refine .rule (.orElse (.spanned ?_) (.orElse (.spanned ?_) (.orElse (.spanned ?_)
    (.orElse (.spanned ?_) (.explaining henv)))))
  · exact .then_ fun _ => .then_ fun _ => .then_ fun _ => .then_ fun _ => .pure fun _ _ _ h => nomatch h
  · exact .then_ fun _ => .then_ fun _ => .then_ fun _ => .then_ fun _ => .pure fun _ _ _ h => nomatch h
  · exact .then_ fun _ => .then_ fun _ => .then_ fun _ => .pure fun _ _ _ h => nomatch h
  · exact .then_ fun _ => .then_ fun _ => .committed (.then_ fun _ => .pure fun _ _ _ h => nomatch h)

omit henv in
theorem importStatement_other : Answers env (importStatement) Stmt.Other := by
  refine .orElse (.spanned ?_) (.orElse (.spanned ?_) (.spanned ?_))
  all_goals
    repeat refine .then_ fun _ => ?_
    exact .pure fun _ _ _ h => nomatch h

theorem deleteStatement_other : Answers env (deleteStatement g) Stmt.Other :=
  .orElse (.spanned (.then_ fun _ => .then_ fun _ => .then_ fun _ => .pure fun _ _ _ h => nomatch h)) (.explaining henv)

theorem conditionClause_other (k : Keyword) (what : String) : Answers env (conditionClause g k what) Stmt.Other := by
  refine .orElse (.explaining henv) (.orElse (.spanned ?_) (.spanned ?_))
  all_goals
    repeat refine .then_ fun _ => ?_
    exact .pure fun _ _ _ h => nomatch h

theorem whileStatement_other : Answers env (whileStatement g) Stmt.Other := by
  refine .orElse (.explaining henv) (.spanned ?_)
  repeat refine .then_ fun _ => ?_
  exact .pure fun _ _ _ h => nomatch h

theorem forStatement_other : Answers env (forStatement g) Stmt.Other := by
  refine .orElse (.explaining henv) (.orElse (.spanned ?_) (.orElse (.spanned ?_) (.explaining henv)))
  all_goals
    repeat refine .then_ fun _ => ?_
    refine .committed ?_
    repeat refine .then_ fun _ => ?_
    exact .pure fun _ _ _ h => nomatch h

theorem withStatement_other : Answers env (withStatement g) Stmt.Other := by
  refine .orElse (.explaining henv) (.orElse (.spanned ?_) (.orElse (.spanned ?_) (.orElse (.spanned ?_)
    (.orElse (.spanned ?_) (.explaining henv)))))
  all_goals
    repeat refine .then_ fun _ => ?_
    exact .pure fun _ _ _ h => nomatch h

theorem tryStatement_other : Answers env (tryStatement g) Stmt.Other := by
  refine .orElse (.explaining henv) (.orElse (.spanned ?_) (.orElse (.spanned ?_) (.spanned ?_)))
  all_goals
    repeat refine .then_ fun _ => ?_
    exact .pure fun _ _ _ h => nomatch h

omit henv in
theorem decorated_other {definition : List Expr → P Stmt} (h : ∀ ds, Answers env (definition ds) Stmt.Other) :
    Answers env (decorated g definition) Stmt.Other :=
  .orElse (.then_ fun ds => h ds) (h [])

theorem classStatement_other (ds : List Expr) : Answers env (classStatement g ds) Stmt.Other := by
  refine .rule (.orElse (.explaining henv) (.spanned ?_))
  repeat refine .then_ fun _ => ?_
  exact .pure fun _ _ _ h => nomatch h

theorem functionStatement_other (ds : List Expr) : Answers env (functionStatement g ds) Stmt.Other := by
  refine .rule (.orElse (.explaining henv) (.orElse (.spanned ?_) (.spanned ?_)))
  all_goals
    repeat refine .then_ fun _ => ?_
    exact .pure fun _ _ _ h => nomatch h

theorem matchStatement_other : Answers env (matchStatement g) Stmt.Other := by
  refine .orElse (.spanned ?_) (.explaining henv)
  repeat refine .then_ fun _ => ?_
  exact .pure fun _ _ _ h => nomatch h

theorem compoundStatement_other : Answers env (compoundStatement g) Stmt.Other := by
  have hdef : Answers env (rule (decorated g (functionStatement g))) Stmt.Other :=
    .rule (decorated_other fun ds => functionStatement_other henv ds)
  have hclass : Answers env (rule (decorated g (classStatement g))) Stmt.Other :=
    .rule (decorated_other fun ds => classStatement_other henv ds)
  refine .then_ fun t => .orElse ?_ (.rule (matchStatement_other henv))
  split
  · exact hdef
  · exact hdef.orElse hclass
  · exact hdef.orElse (.orElse (.rule (withStatement_other henv)) (.rule (forStatement_other henv)))
  · exact .rule (conditionClause_other henv _ _)
  · exact hclass
  · exact .rule (withStatement_other henv)
  · exact .rule (forStatement_other henv)
  · exact .rule (tryStatement_other henv)
  · exact .rule (whileStatement_other henv)
  · exact .fail

end Other

theorem orElse_ok {q : P α} {a : α} (h : (p <|> q) env st = .ok a st') :
    p env st = .ok a st' ∨ ∃ st₁, st₁.mark = st.mark ∧ q env st₁ = .ok a st' := by
  have h : P.orElse p (fun _ => q) env st = .ok a st' := h
  rw [P.orElse] at h
  split at h
  case h_1 =>
    refine .inr ⟨_, ?_, h⟩
    rfl
  case h_2 => cases h
  case h_3 => exact .inl h

theorem rule_ok {a : α} (h : P.rule p env st = .ok a st') : p env st = .ok a st' := by
  rw [P.rule] at h
  split at h
  case h_3 => exact h
  all_goals cases h

/-- A token that is no layout is what an expression begins with. -/
theorem notAhead_layout {t : Token} {u : Unit} (ht : env.tokens[st.mark]? = some t)
    (h : notAhead layout env st = .ok u st') : isLayout t.lexeme = false := by
  refine Bool.eq_false_iff.mpr fun hlayout => ?_
  have hlay : ∃ st₁, layout env st = .ok () st₁ := by
    rw [layout, accept, token, ht]
    dsimp only
    split
    case h_1 u st₁ hu =>
      have hut : u = t := by
        split at hu
        all_goals exact (Reply.ok.inj hu).1.symm
      rw [hut, if_pos hlayout]
      exact ⟨_, rfl⟩
    all_goals
      rename_i hu
      split at hu
      all_goals cases hu
  obtain ⟨st₁, hlay⟩ := hlay
  exact (notAhead_ok h).2 () st₁ hlay

/-- A simple statement that is an expression begins with the token at hand. -/
theorem start_of_simpleStatement (henv : env.explain = false) {span : Span} {e : Expr}
    (h : simpleStatement g env st = .ok (.expr span e) st') :
    ∃ t, env.tokens[st.mark]? = some t ∧ isLayout t.lexeme = false ∧ span.start = (spanOf t).start := by
  have hother {q : P Stmt} {st : State} (hq : Answers env q Stmt.Other) (h : q env st = .ok (.expr span e) st') :
      ∃ t, env.tokens[st.mark]? = some t ∧ isLayout t.lexeme = false ∧ span.start = (spanOf t).start :=
    absurd rfl (hq _ _ _ h span e)
  rcases orElse_ok h with h | ⟨st₁, hm, h⟩
  · exact hother (assignment_other henv) h
  rw [← hm]
  rcases orElse_ok h with h | ⟨st₂, hm, h⟩
  · -- an expression, behind a look at its first token
    obtain ⟨t, st₃, f, st₄, sp, ht, hmark, hf, hstart, heq⟩ := spanned_ok h
    obtain ⟨u, st₅, hlayout, hf⟩ := bind_ok hf
    obtain ⟨e', st₆, -, hf⟩ := bind_ok hf
    obtain ⟨rfl, -⟩ := Reply.ok.inj hf
    obtain ⟨rfl, -⟩ := Stmt.expr.inj heq
    exact ⟨t, ht, notAhead_layout (hmark ▸ ht) hlayout, hstart⟩
  rw [← hm]
  rcases orElse_ok h with h | ⟨st₃, hm, h⟩
  · -- a word; only behind `yield` is an expression
    obtain ⟨t, st₄, f, st₅, sp, ht, hmark, hf, hstart, heq⟩ := spanned_ok h
    obtain ⟨u, st₆, hu, hf⟩ := bind_ok hf
    obtain ⟨hu, -⟩ := token_ok hu
    obtain rfl : u = t := Option.some.inj (hu.symm.trans (hmark ▸ ht))
    have hform {q : P (Span → Stmt)} (hq : Answers env q fun f => ∀ sp, (f sp).Other)
        (hf : q env st₆ = .ok f st₅) : ∃ t, env.tokens[st₂.mark]? = some t ∧ isLayout t.lexeme = false ∧
          span.start = (spanOf t).start :=
      absurd heq.symm (hq _ _ _ hf sp span e)
    generalize hl : u.lexeme = l at hf
    split at hf
    case h_2 =>
      refine hform (.then_ fun _ => .then_ fun o => ?_) hf
      cases o with
      | none => exact .pure fun _ _ _ h => nomatch h
      | some e => exact .then_ fun _ => .pure fun _ _ _ h => nomatch h
    case h_9 =>
      obtain ⟨e', st₇, -, hf⟩ := bind_ok hf
      obtain ⟨rfl, -⟩ := Reply.ok.inj hf
      obtain ⟨rfl, -⟩ := Stmt.expr.inj heq
      exact ⟨u, ht, by rw [hl]; rfl, hstart⟩
    case h_10 => cases hf
    all_goals
      refine hform ?_ hf
      repeat refine .then_ fun _ => ?_
      exact .pure fun _ _ _ h => nomatch h
  rw [← hm]
  rcases orElse_ok h with h | ⟨st₄, hm, h⟩
  · exact hother (.then_ fun _ => importStatement_other) h
  · exact hm ▸ hother (.then_ fun _ => .rule (deleteStatement_other henv)) h

theorem simpleStatement_begun (henv : env.explain = false) :
    Answers env (simpleStatement g) (Stmt.Begun env.tokens) := by
  rintro st s st' h span e rfl
  obtain ⟨t, ht, hlayout, hstart⟩ := start_of_simpleStatement henv h
  exact ⟨t, Array.mem_of_getElem? ht, hlayout, hstart⟩

variable {φ : Stmt → Prop}

theorem simpleStatements_all (hg : Answers env (g .simpleStatement) φ) :
    Answers env (simpleStatements g) fun ss => ∀ s ∈ ss, φ s := by
  refine .orElse (hg.bind fun s hs => .then_ fun _ => .then_ fun _ => .pure ?_)
    (hg.sepBy1.bind fun ss hss => .then_ fun _ => .then_ fun _ => .pure hss)
  exact List.forall_mem_singleton.mpr hs

theorem statements_all (hc : Answers env (compoundStatement g) φ) (hg : Answers env (g .simpleStatement) φ) :
    Answers env (statements g) fun ss => ∀ s ∈ ss, φ s := by
  have hgroup : Answers env ((do return [← rule (compoundStatement g)]) <|> rule (simpleStatements g))
      fun ss => ∀ s ∈ ss, φ s :=
    .orElse (hc.rule.bind fun s hs => .pure (List.forall_mem_singleton.mpr hs)) (.rule (simpleStatements_all hg))
  refine hgroup.many1.bind fun groups hgroups => .pure fun s hs => ?_
  obtain ⟨ss, hss, hs⟩ := List.mem_flatten.mp hs
  exact hgroups ss hss s hs

theorem grammar_statements_begun (henv : env.explain = false) (field : FieldParser) (n : Nat) :
    Answers env (grammar field n .statements) fun ss => ∀ s ∈ ss, s.Begun env.tokens := by
  cases n with
  | zero => exact .fail
  | succ n =>
    have hsimple : Answers env (grammar field n .simpleStatement) (Stmt.Begun env.tokens) := by
      cases n with
      | zero => exact .fail
      | succ n => exact .rule (simpleStatement_begun henv)
    exact .rule (statements_all ((compoundStatement_other henv).mono fun s hs => hs.begun env.tokens) hsimple)

end P

/-- A statement that is an expression begins where one of the tokens of its text begins. -/
theorem begun_of_parse {text : List Char} {bdfl : Bool} {body : List Stmt} (h : (parse text bdfl).1 = .ok body) :
    ∀ s ∈ body, s.Begun (TokenStream.ofText text).tokens := by
  obtain ⟨-, st, h⟩ := parse_ok.mp h
  obtain ⟨ss, st₁, hss, h⟩ := P.bind_ok h
  obtain ⟨u, st₂, -, h⟩ := P.bind_ok h
  obtain ⟨rfl, -⟩ := Reply.ok.inj h
  rcases P.optional_ok hss with ⟨rfl, -⟩ | ⟨b, rfl, hb⟩
  · exact fun s hs => nomatch hs
  · exact P.grammar_statements_begun rfl _ _ _ _ _ hb

end Evalbox.Lang
