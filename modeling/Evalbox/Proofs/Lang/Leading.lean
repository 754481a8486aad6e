import Evalbox.Proofs.Lang.Plain

/-!
# The tokens that statements begin with

In front of a token that leads no expression every rule of expressions balks (`balks_plain`): it has no answer. So a
simple statement that was read tells what its first token is not (`begins_of_simpleStatement`).
-/

namespace Evalbox.Lang

open Parse

/-- Tokens that an expression can begin with. -/
@[reducible] def Lexeme.leads : Lexeme → Bool
  | .name _ | .number _ | .text _ => true
  | .symbol .lpar | .symbol .lsqb | .symbol .lbrace | .symbol .ellipsis => true
  | .symbol .plus | .symbol .minus | .symbol .tilde | .symbol .star => true
  | .word .true_ | .word .false_ | .word .none_ | .word .not_ | .word .lambda_ | .word .await_ => true
  | _ => false

/-- Tokens that a simple statement can begin with. -/
def Lexeme.begins : Lexeme → Bool
  | .word .return_ | .word .raise_ | .word .pass_ | .word .assert_ | .word .break_ | .word .continue_ => true
  | .word .global_ | .word .nonlocal_ | .word .yield_ | .word .import_ | .word .from_ | .word .del_ => true
  | l => l.leads

/-- In front of the token `m` no expression begins. -/
class Dull (env : Env) (m : Nat) : Prop where
  explain : env.explain = false
  leads : ∀ t, env.tokens[m]? = some t → t.lexeme.leads = false

/-- A parser gives up in front of the token `m`. Where no token is left, what halted the scanner may end the parse. -/
class Balks (env : Env) (m : Nat) {α : Type} (p : P α) : Prop where
  fails : ∀ st, st.mark = m → (∃ s, p env st = .fail s) ∨ env.tokens[m]? = none ∧ ∃ r s, p env st = .stop r s

/-- A parser that looks at the token `m` answers or gives up. -/
class Looks (env : Env) (m : Nat) {α : Type} (p : P α) : Prop where
  ends : ∀ st, st.mark = m → (∃ a s, p env st = .ok a s) ∨ (∃ s, p env st = .fail s) ∨
    env.tokens[m]? = none ∧ ∃ r s, p env st = .stop r s

/-- A parser that stays in front of the token `m` and answers something with the property `T`, or gives up. -/
def Peeks (env : Env) (m : Nat) {α : Type} (T : α → Prop) (p : P α) : Prop := ∀ st, st.mark = m →
  (∃ a s, p env st = .ok a s ∧ s.mark = m ∧ T a) ∨ (∃ s, p env st = .fail s) ∨
    env.tokens[m]? = none ∧ ∃ r s, p env st = .stop r s

/-- The rules that answer an expression. -/
@[reducible] def Parse.Rule.isExpression : Rule → Bool
  | .expression | .starExpression | .namedExpression | .disjunction | .conjunction | .inversion | .bitwiseOr | .factor
  | .awaitPrimary | .primary | .strings | .targetPrimary | .starTarget | .targetWithStarAtom | .deleteTarget
  | .singleTarget | .annotatedTarget => true
  | _ => false

/-- All rules that answer an expression balk. -/
class Balking (env : Env) (m : Nat) (g : Grammar) : Prop where
  rule : ∀ r : Rule, r.isExpression = true → Balks env m (g r)

namespace Peeks

variable {env : Env} {m : Nat} {α β : Type} {T : α → Prop} {p : P α}

/-- The token at hand, if there is one. -/
theorem token : Peeks env m (fun t => env.tokens[m]? = some t) P.token := by
  intro st hm
  cases ht : env.tokens[st.mark]? with
  | some t =>
    obtain ⟨s, hs, hmark, -⟩ := Meets.token_eq ht
    exact .inl ⟨t, s, hs, hmark.trans hm, hm ▸ ht⟩
  | none =>
    rw [P.token, ht]
    dsimp only
    split
    · exact .inr (.inr ⟨hm ▸ ht, _, _, rfl⟩)
    · exact .inr (.inl ⟨_, rfl⟩)

theorem start : Peeks env m (fun _ => True) P.start := by
  intro st hm
  change (∃ a s, P.bind P.token _ env st = .ok a s ∧ s.mark = m ∧ True) ∨ (∃ s, P.bind P.token _ env st = .fail s) ∨
    _ ∧ ∃ r s, P.bind P.token _ env st = .stop r s
  rw [P.bind]
  rcases token st hm with ⟨t, s, hs, hmark, -⟩ | ⟨s, hs⟩ | ⟨hnone, r, s, hs⟩
  · rw [hs]
    exact .inl ⟨_, s, rfl, hmark, trivial⟩
  · rw [hs]
    exact .inr (.inl ⟨s, rfl⟩)
  · rw [hs]
    exact .inr (.inr ⟨hnone, r, s, rfl⟩)

theorem notAhead (hp : Looks env m p) : Peeks env m (fun _ => True) (P.notAhead p) := by
  intro st hm
  rw [P.notAhead]
  rcases hp.ends st hm with ⟨a, s, hs⟩ | ⟨s, hs⟩ | ⟨hnone, r, s, hs⟩
  · rw [hs]
    exact .inr (.inl ⟨_, rfl⟩)
  · rw [hs]
    exact .inl ⟨_, _, rfl, hm, trivial⟩
  · rw [hs]
    exact .inr (.inr ⟨hnone, r, s, rfl⟩)

/-- What comes behind a token that is only looked at. -/
theorem bind {f : α → P β} (hp : Peeks env m T p) (hf : ∀ a, T a → Balks env m (f a)) : Balks env m (p >>= f) where
  fails st hm := by
    change (∃ s, P.bind p f env st = .fail s) ∨ _ ∧ ∃ r s, P.bind p f env st = .stop r s
    rw [P.bind]
    rcases hp st hm with ⟨a, s, hs, hmark, ha⟩ | ⟨s, hs⟩ | ⟨hnone, r, s, hs⟩
    · rw [hs]
      exact (hf a ha).fails s hmark
    · rw [hs]
      exact .inl ⟨s, rfl⟩
    · rw [hs]
      exact .inr ⟨hnone, r, s, rfl⟩

end Peeks

namespace Balks

variable {env : Env} {m : Nat} {α β : Type} {p q : P α}

theorem ne_ok (h : Balks env m p) {st st' : State} {a : α} (hm : st.mark = m) : p env st ≠ .ok a st' := by
  intro hok
  rcases h.fails st hm with ⟨s, hs⟩ | ⟨-, r, s, hs⟩
  all_goals cases hs.symm.trans hok

instance {f : α → P β} [hp : Balks env m p] : Balks env m (p >>= f) where
  fails st hm := by
    change (∃ s, P.bind p f env st = .fail s) ∨ _ ∧ ∃ r s, P.bind p f env st = .stop r s
    rw [P.bind]
    rcases hp.fails st hm with ⟨s, hs⟩ | ⟨hnone, r, s, hs⟩
    · rw [hs]
      exact .inl ⟨s, rfl⟩
    · rw [hs]
      exact .inr ⟨hnone, r, s, rfl⟩

instance [hp : Looks env m p] {f : Unit → P β} [hf : ∀ a, Balks env m (f a)] : Balks env m (P.notAhead p >>= f) :=
  (Peeks.notAhead hp).bind fun a _ => hf a

instance {f : Place → P β} [hf : ∀ a, Balks env m (f a)] : Balks env m (P.start >>= f) :=
  Peeks.start.bind fun a _ => hf a

instance : Balks env m (P.fail : P α) := ⟨fun st _ => .inl ⟨st, rfl⟩⟩

theorem orElse (hp : Balks env m p) (hq : Balks env m q) : Balks env m (p <|> q) where
  fails st hm := by
    change (∃ s, P.orElse p (fun _ => q) env st = .fail s) ∨ _ ∧ ∃ r s, P.orElse p (fun _ => q) env st = .stop r s
    rw [P.orElse]
    rcases hp.fails st hm with ⟨s, hs⟩ | ⟨hnone, r, s, hs⟩
    · rw [hs]
      exact hq.fails _ hm
    · rw [hs]
      exact .inr ⟨hnone, r, s, rfl⟩

instance [hp : Balks env m p] [hq : Balks env m q] : Balks env m (p <|> q) := hp.orElse hq

instance [hp : Balks env m p] : Balks env m (P.rule p) where
  fails st hm := by
    rw [P.rule]
    rcases hp.fails st hm with ⟨s, hs⟩ | ⟨hnone, r, s, hs⟩
    · rw [hs]
      exact .inl ⟨_, rfl⟩
    · rw [hs]
      exact .inr ⟨hnone, r, s, rfl⟩

instance [hp : Balks env m p] : Balks env m p.ahead where
  fails st hm := by
    rw [P.ahead]
    rcases hp.fails st hm with ⟨s, hs⟩ | ⟨hnone, r, s, hs⟩
    · rw [hs]
      exact .inl ⟨_, rfl⟩
    · rw [hs]
      exact .inr ⟨hnone, r, s, rfl⟩

theorem spanned {p : P (Span → α)} (hp : Balks env m p) : Balks env m (P.spanned p) := by
  unfold P.spanned
  infer_instance

instance {p : P (Span → α)} [hp : Balks env m p] : Balks env m (P.spanned p) := hp.spanned

instance [hp : Balks env m p] : Balks env m (P.many1 p) := by
  unfold P.many1
  infer_instance

instance {sep : P β} [hp : Balks env m p] : Balks env m (P.sepBy1 p sep) := by
  unfold P.sepBy1
  infer_instance

/-- A token that is not accepted. -/
theorem accept {f : Token → Option α} (hf : ∀ t, env.tokens[m]? = some t → f t = none) : Balks env m (P.accept f) where
  fails st hm := by
    rw [P.accept]
    rcases Peeks.token st hm with ⟨t, s, hs, -, ht⟩ | ⟨s, hs⟩ | ⟨hnone, r, s, hs⟩
    · rw [hs]
      dsimp only
      rw [hf t ht]
      exact .inl ⟨s, rfl⟩
    · rw [hs]
      exact .inl ⟨s, rfl⟩
    · rw [hs]
      exact .inr ⟨hnone, r, s, rfl⟩

instance {f : Token → Option α} : Looks env m (P.accept f) where
  ends st hm := by
    rw [P.accept]
    rcases Peeks.token st hm with ⟨t, s, hs, -, ht⟩ | ⟨s, hs⟩ | ⟨hnone, r, s, hs⟩
    · rw [hs]
      dsimp only
      cases f t with
      | some a => exact .inl ⟨a, _, rfl⟩
      | none => exact .inr (.inl ⟨s, rfl⟩)
    · rw [hs]
      exact .inr (.inl ⟨s, rfl⟩)
    · rw [hs]
      exact .inr (.inr ⟨hnone, r, s, rfl⟩)

instance : Looks env m P.layout := inferInstanceAs (Looks env m (P.accept _))

instance (s : Sym) : Looks env m (P.symbol s) := inferInstanceAs (Looks env m (P.accept _))

/-- A token that tells what to read. -/
theorem token {f : Token → P α} (hf : ∀ t, env.tokens[m]? = some t → Balks env m (f t)) :
    Balks env m (P.token >>= f) := Peeks.token.bind hf

section Expressions

variable [hd : Dull env m]

include hd in
theorem lexeme_ne {t : Token} (ht : env.tokens[m]? = some t) {l : Lexeme} (hl : l.leads = true) : t.lexeme ≠ l := by
  rintro rfl
  rw [hd.leads t ht] at hl
  cases hl

instance : Balks env m (P.explaining p) where
  fails st _ := by
    rw [P.explaining, hd.explain]
    exact .inl ⟨_, rfl⟩

instance (s : Sym) [h : Same.Evident (Lexeme.leads (.symbol s)) true] : Balks env m (P.symbol s) :=
  accept fun _ ht => if_neg (lexeme_ne ht h.eq)

instance (k : Keyword) [h : Same.Evident (Lexeme.leads (.word k)) true] : Balks env m (P.word k) :=
  accept fun _ ht => if_neg (lexeme_ne ht h.eq)

instance : Balks env m P.name := by
  refine accept fun t ht => ?_
  split
  case h_1 n hn => exact absurd hn (lexeme_ne ht rfl)
  case h_2 => rfl

end Expressions

end Balks

namespace P

open Balks

variable {env : Env} {m : Nat} [hd : Dull env m] {g : Grammar} [hg : Balking env m g]

instance : Balks env m (g .expression : P Expr) := hg.rule .expression rfl

instance : Balks env m (g .starExpression : P Expr) := hg.rule .starExpression rfl

instance : Balks env m (g .namedExpression : P Expr) := hg.rule .namedExpression rfl

instance : Balks env m (g .disjunction : P Expr) := hg.rule .disjunction rfl

instance : Balks env m (g .conjunction : P Expr) := hg.rule .conjunction rfl

instance : Balks env m (g .inversion : P Expr) := hg.rule .inversion rfl

instance : Balks env m (g .bitwiseOr : P Expr) := hg.rule .bitwiseOr rfl

instance : Balks env m (g .factor : P Expr) := hg.rule .factor rfl

instance : Balks env m (g .awaitPrimary : P Expr) := hg.rule .awaitPrimary rfl

instance : Balks env m (g .primary : P Expr) := hg.rule .primary rfl

instance : Balks env m (g .strings : P Expr) := hg.rule .strings rfl

instance : Balks env m (g .targetPrimary : P Expr) := hg.rule .targetPrimary rfl

instance : Balks env m (g .starTarget : P Expr) := hg.rule .starTarget rfl

instance : Balks env m (g .targetWithStarAtom : P Expr) := hg.rule .targetWithStarAtom rfl

instance : Balks env m (g .deleteTarget : P Expr) := hg.rule .deleteTarget rfl

instance : Balks env m (g .singleTarget : P Expr) := hg.rule .singleTarget rfl

instance : Balks env m (g .annotatedTarget : P Expr) := hg.rule .annotatedTarget rfl

instance : Balks env m nameExpr := by
  unfold nameExpr
  infer_instance

instance (field : FieldParser) : Balks env m (strings field) := by
  unfold strings
  have : Balks env m (accept fun t => match t.lexeme with
      | .text cs => some (t, cs)
      | _ => none) := by
    refine Balks.accept fun t ht => ?_
    split
    case h_1 cs hn => exact absurd hn (lexeme_ne ht rfl)
    case h_2 => rfl
  infer_instance

instance : Balks env m (atom g) := by
  unfold atom
  refine Balks.token fun t ht => ?_
  have hne {l : Lexeme} (h : t.lexeme = l) (hl : l.leads = true) : False := lexeme_ne ht hl h
  split
  all_goals first
    | infer_instance
    | exact (hne ‹_› rfl).elim

instance : Balks env m (list g) := by
  unfold list
  infer_instance

instance : Balks env m (tuple g) := by
  unfold tuple
  infer_instance

instance : Balks env m (memberTarget g) := by
  unfold memberTarget
  infer_instance

instance : Balks env m (starAtom g) := by
  unfold starAtom
  infer_instance

instance : Balks env m (comparison g) := by
  unfold comparison
  infer_instance

instance : Balks env m (power g) := by
  unfold power
  infer_instance

instance {operand : P Expr} [Balks env m operand] (op : P BinaryOp) : Balks env m (leftAssociative operand op) := by
  unfold leftAssociative
  infer_instance

instance : Balks env m (bitwiseXor g) := by
  unfold bitwiseXor bitwiseAnd shift sum term
  infer_instance

instance {item : P Expr} [Balks env m item] : Balks env m (tupleOr item) := by
  unfold tupleOr
  infer_instance

instance : Balks env m (starExpressions g) := by
  unfold starExpressions
  infer_instance

instance : Balks env m (starTargets g) := by
  unfold starTargets
  infer_instance

omit hg in
theorem balks_rules (field : FieldParser) (hg : Balking env m g) (r : Rule) (hr : r.isExpression = true) :
    Balks env m (rules field g r) := by
  cases r
  case statements | block | simpleStatement | elifClause | arguments | lambdaParams | pattern | closedPattern => cases hr
  case strings => exact inferInstanceAs (Balks env m (strings field))
  all_goals
    simp only [rules, expression, plainExpression, starExpression, namedExpression, assignmentExpression, disjunction,
      conjunction, booleanChain, inversion, bitwiseOr, factor, awaitPrimary, primary, targetPrimary, starTarget,
      targetWithStarAtom, deleteTarget, singleTarget, annotatedDisplay]
    infer_instance

/-- No rule of expressions answers in front of a token that leads none. -/
theorem balks_plain (field : FieldParser) (n : Nat) : Balking env m (plain field n) := by
  induction n with
  | zero => exact ⟨fun r _ => inferInstanceAs (Balks env m P.fail)⟩
  | succ n ih =>
    refine ⟨fun r hr => ?_⟩
    have := balks_rules field ih r hr
    exact inferInstanceAs (Balks env m (P.rule (rules field (plain field n) r)))

instance : Balks env m (assignment g) := by
  unfold assignment
  infer_instance

omit hd hg in
/-- No simple statement is read in front of a token that begins none. -/
theorem balks_simpleStatement (henv : env.explain = false)
    (hbegins : ∀ t, env.tokens[m]? = some t → t.lexeme.begins = false) (field : FieldParser) (n : Nat) :
    Balks env m (plain field n .simpleStatement) := by
  have hleads (l : Lexeme) (h : l.begins = false) : l.leads = false := by
    cases l with
    | word k => cases k <;> first | rfl | cases h
    | _ => exact h
  have : Dull env m := ⟨henv, fun t ht => hleads _ (hbegins t ht)⟩
  cases n with
  | zero => exact inferInstanceAs (Balks env m (P.fail : P Stmt))
  | succ n =>
    have : Balking env m (plain field n) := balks_plain field n
    have hword (k : Keyword) (hk : Lexeme.begins (.word k) = true) : Balks env m (word k) := by
      refine Balks.accept fun t ht => if_neg fun hl => ?_
      rw [← hl, hbegins t ht] at hk
      cases hk
    have := hword .import_ rfl
    have := hword .from_ rfl
    have := hword .del_ rfl
    suffices Balks env m (simpleStatement (plain field n)) from
      inferInstanceAs (Balks env m (P.rule (simpleStatement (plain field n))))
    unfold simpleStatement
    refine .orElse inferInstance (.orElse inferInstance (.orElse ?_ inferInstance))
    refine Balks.spanned (Balks.token fun t ht => ?_)
    have hne {l : Lexeme} (h : t.lexeme = l) (hl : l.begins = true) : False := by
      rw [← h, hbegins t ht] at hl
      cases hl
    split
    case h_10 => infer_instance
    all_goals exact (hne ‹_› rfl).elim

/-- A simple statement that was read tells what it begins with. -/
theorem begins_of_simpleStatement {field : FieldParser} {n : Nat} (henv : env.explain = false) {st st' : State} {s : Stmt}
    (h : plain field n .simpleStatement env st = .ok s st') :
    ∃ t, env.tokens[st.mark]? = some t ∧ t.lexeme.begins = true := by
  refine Classical.byContradiction fun hnone => ?_
  refine (balks_simpleStatement henv (fun t ht => ?_) field n).ne_ok rfl h
  exact Bool.eq_false_iff.mpr fun hb => hnone ⟨t, ht, hb⟩

end P

end Evalbox.Lang
