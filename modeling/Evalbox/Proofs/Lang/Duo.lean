import Evalbox.Proofs.Lang.Bare
import Evalbox.Proofs.Lang.Blocks

/-!
# Two parses side by side

Two parsers meet where they do the same (`Meets`): both answer, and their answers are alike, or both do not succeed.
-/

namespace Evalbox.Lang

open Parse

/-- Two runs of parsers. The right one is as many tokens further on as `shift` says, and `kept` is what is known of all
that the left one remembers. -/
structure Duo where
  left : Env
  right : Env
  shift : Nat
  kept : Array (List Entry) → Prop
  explain : left.explain = false ∧ right.explain = false
  bdfl : right.bdfl = left.bdfl
  halt : right.halt.isSome = left.halt.isSome

/-- Replies that tell the same, unless the left one rejects the source. `T` says what two answers have to do with each
other and with the place behind them. -/
inductive Parse.Reply.Meets (D : Duo) {α : Type} (T : α → α → Nat → Prop) : Reply α → Reply α → Prop
  | ok {a b : α} {s t : State} (h : T a b s.mark) (hmark : t.mark = s.mark + D.shift) (hkept : D.kept s.memo) :
      Meets D T (.ok a s) (.ok b t)
  | fail {s t : State} (hkept : D.kept s.memo) : Meets D T (.fail s) (.fail t)
  | cut {s t : State} (hkept : D.kept s.memo) : Meets D T (.cut s) (.cut t)
  | stop (r : Rejection) (s : State) (x : Reply α) : Meets D T (.stop r s) x

/-- Two parsers do the same from the token with the number `m` on. -/
def Meets (D : Duo) (m : Nat) {α : Type} (T : α → α → Nat → Prop) (p q : P α) : Prop :=
  ∀ st st', st.mark = m → st'.mark = m + D.shift → D.kept st.memo → (p D.left st).Meets D T (q D.right st')

namespace Meets

variable {D : Duo} {m : Nat} {α β : Type} {T : α → α → Nat → Prop} {U : β → β → Nat → Prop} {p p' q q' : P α}

theorem mono {T' : α → α → Nat → Prop} (h : Meets D m T p q) (hT : ∀ a b i, T a b i → T' a b i) :
    Meets D m T' p q := by
  intro st st' hm hm' hk
  have h := h st st' hm hm' hk
  generalize p D.left st = x at h ⊢
  generalize q D.right st' = y at h ⊢
  cases h with
  | ok h hmark hkept => exact .ok (hT _ _ _ h) hmark hkept
  | fail hkept => exact .fail hkept
  | cut hkept => exact .cut hkept
  | stop => exact .stop ..

theorem pure {a b : α} (h : T a b m) : Meets D m T (Pure.pure a) (Pure.pure b) :=
  fun _ _ hm hm' hk => .ok (hm ▸ h) (hm'.trans (hm ▸ rfl)) hk

theorem bind {f f' : α → P β} (hp : Meets D m T p q)
    (hf : ∀ a b i, T a b i → Meets D i U (f a) (f' b)) : Meets D m U (p >>= f) (q >>= f') := by
  intro st st' hm hm' hk
  have hp := hp st st' hm hm' hk
  change (P.bind p f D.left st).Meets D U (P.bind q f' D.right st')
  rw [P.bind, P.bind]
  generalize p D.left st = x at hp ⊢
  generalize q D.right st' = y at hp ⊢
  cases hp with
  | ok h hmark hkept => exact hf _ _ _ h _ _ rfl hmark hkept
  | fail hkept => exact .fail hkept
  | cut hkept => exact .cut hkept
  | stop => exact .stop ..

theorem fail : Meets D m T (P.fail : P α) P.fail := fun _ _ _ _ hk => .fail hk

theorem cut : Meets D m T (P.cut : P α) P.cut := fun _ _ _ _ hk => .cut hk

theorem orElse (hp : Meets D m T p p') (hq : Meets D m T q q') : Meets D m T (p <|> q) (p' <|> q') := by
  intro st st' hm hm' hk
  have hp := hp st st' hm hm' hk
  change (P.orElse p (fun _ => q) D.left st).Meets D T (P.orElse p' (fun _ => q') D.right st')
  rw [P.orElse, P.orElse]
  generalize p D.left st = x at hp ⊢
  generalize p' D.right st' = y at hp ⊢
  cases hp with
  | ok h hmark hkept => exact .ok h hmark hkept
  | fail hkept => exact hq _ _ hm hm' hkept
  | cut hkept => exact .fail hkept
  | stop => exact .stop ..

theorem rule (hp : Meets D m T p q) : Meets D m T (P.rule p) (P.rule q) := by
  intro st st' hm hm' hk
  have hp := hp st st' hm hm' hk
  rw [P.rule, P.rule]
  generalize p D.left st = x at hp ⊢
  generalize q D.right st' = y at hp ⊢
  cases hp with
  | ok h hmark hkept => exact .ok h hmark hkept
  | fail hkept | cut hkept => exact .fail hkept
  | stop => exact .stop ..

theorem committed (hp : Meets D m T p q) : Meets D m T (P.committed p) (P.committed q) := by
  intro st st' hm hm' hk
  have hp := hp st st' hm hm' hk
  rw [P.committed, P.committed]
  generalize p D.left st = x at hp ⊢
  generalize q D.right st' = y at hp ⊢
  cases hp with
  | ok h hmark hkept => exact .ok h hmark hkept
  | fail hkept | cut hkept => exact .cut hkept
  | stop => exact .stop ..

theorem optional {U : Option α → Option α → Nat → Prop} (hp : Meets D m T p q)
    (hsome : ∀ a b i, T a b i → U (some a) (some b) i) (hnone : U none none m) :
    Meets D m U p.optional q.optional := by
  intro st st' hm hm' hk
  have hp := hp st st' hm hm' hk
  rw [P.optional, P.optional]
  generalize p D.left st = x at hp ⊢
  generalize q D.right st' = y at hp ⊢
  cases hp with
  | ok h hmark hkept => exact .ok (hsome _ _ _ h) hmark hkept
  | fail hkept | cut hkept => exact .ok (hm ▸ hnone) (hm'.trans (hm ▸ rfl)) hkept
  | stop => exact .stop ..

theorem ahead {U : Unit → Unit → Nat → Prop} (hp : Meets D m T p q) (h : U () () m) :
    Meets D m U p.ahead q.ahead := by
  intro st st' hm hm' hk
  have hp := hp st st' hm hm' hk
  rw [P.ahead, P.ahead]
  generalize p D.left st = x at hp ⊢
  generalize q D.right st' = y at hp ⊢
  cases hp with
  | ok _ hmark hkept => exact .ok (hm ▸ h) (hm'.trans (hm ▸ rfl)) hkept
  | fail hkept | cut hkept => exact .fail hkept
  | stop => exact .stop ..

theorem notAhead {U : Unit → Unit → Nat → Prop} (hp : Meets D m T p q) (h : U () () m) :
    Meets D m U p.notAhead q.notAhead := by
  intro st st' hm hm' hk
  have hp := hp st st' hm hm' hk
  rw [P.notAhead, P.notAhead]
  generalize p D.left st = x at hp ⊢
  generalize q D.right st' = y at hp ⊢
  cases hp with
  | ok _ hmark hkept => exact .fail hkept
  | fail hkept | cut hkept => exact .ok (hm ▸ h) (hm'.trans (hm ▸ rfl)) hkept
  | stop => exact .stop ..

section Repeated

variable {I : Nat → Prop} {top : Nat}

/-- Each of several steps goes on by a token at least and stays where `I` holds, which ends at `top`. -/
theorem manyUpTo [Kin α] (hp : ∀ i, I i → Meets D i (fun a b j => Kin.alike a b ∧ i < j ∧ I j) p q)
    (htop : ∀ i, I i → i ≤ top) (n : Nat) : ∀ n' m, I m → top - m < n → top - m < n' →
      Meets D m (fun as bs j => Kin.alike as bs ∧ m ≤ j ∧ I j) (P.manyUpTo p n) (P.manyUpTo q n') := by
  induction n with
  | zero => exact fun n' m _ h => absurd h (Nat.not_lt_zero _)
  | succ n ih =>
    intro n' m hI hn hn'
    obtain ⟨n', rfl⟩ : ∃ k, n' = k + 1 := ⟨n' - 1, by omega⟩
    -- a step that succeeds goes on, so that fewer of them are left
    have hstep : Meets D m (fun o o' j => (o = none ∧ o' = none ∧ j = m) ∨
        ∃ a b, o = some a ∧ o' = some b ∧ Kin.alike a b ∧ m < j ∧ I j) p.optional q.optional :=
      (hp m hI).optional (fun a b i h => .inr ⟨a, b, rfl, rfl, h⟩) (.inl ⟨rfl, rfl, rfl⟩)
    refine hstep.bind fun o o' j h => ?_
    rcases h with ⟨rfl, rfl, rfl⟩ | ⟨a, b, rfl, rfl, hab, hmj, hj⟩
    · exact .pure ⟨.nil, Nat.le_refl _, hI⟩
    · have hle := htop j hj
      refine (ih n' j hj (by omega) (by omega)).bind fun as bs i h => .pure ?_
      exact ⟨.cons hab h.1, by omega, h.2.2⟩

theorem many [Kin α] (hp : ∀ i, I i → Meets D i (fun a b j => Kin.alike a b ∧ i < j ∧ I j) p q)
    (htop : ∀ i, I i → i ≤ top) (hl : top ≤ D.left.tokens.size) (hr : top ≤ D.right.tokens.size) (hm : I m) :
    Meets D m (fun as bs j => Kin.alike as bs ∧ m ≤ j ∧ I j) p.many q.many :=
  fun st st' => manyUpTo hp htop _ _ m hm (by omega) (by omega) st st'

theorem foldUpTo [Kin α] {f f' : α → P α}
    (hf : ∀ a b i, Kin.alike a b → I i → Meets D i (fun a b j => Kin.alike a b ∧ i < j ∧ I j) (f a) (f' b))
    (htop : ∀ i, I i → i ≤ top) (n : Nat) : ∀ n' m a b, Kin.alike a b → I m → top - m < n → top - m < n' →
      Meets D m (fun a b j => Kin.alike a b ∧ m ≤ j ∧ I j) (P.foldUpTo f n a) (P.foldUpTo f' n' b) := by
  induction n with
  | zero => exact fun n' m a b _ _ h => absurd h (Nat.not_lt_zero _)
  | succ n ih =>
    intro n' m a b hab hI hn hn'
    obtain ⟨n', rfl⟩ : ∃ k, n' = k + 1 := ⟨n' - 1, by omega⟩
    have hstep : Meets D m (fun o o' j => (o = none ∧ o' = none ∧ j = m) ∨
        ∃ a b, o = some a ∧ o' = some b ∧ Kin.alike a b ∧ m < j ∧ I j) (f a).optional (f' b).optional :=
      (hf a b m hab hI).optional (fun a b i h => .inr ⟨a, b, rfl, rfl, h⟩) (.inl ⟨rfl, rfl, rfl⟩)
    refine hstep.bind fun o o' j h => ?_
    rcases h with ⟨rfl, rfl, rfl⟩ | ⟨a', b', rfl, rfl, hab', hmj, hj⟩
    · exact .pure ⟨hab, Nat.le_refl _, hI⟩
    · have hle := htop j hj
      exact (ih n' j a' b' hab' hj (by omega) (by omega)).mono fun _ _ _ h => ⟨h.1, by omega, h.2.2⟩

theorem foldFrom [Kin α] {f f' : α → P α} {a b : α}
    (hf : ∀ a b i, Kin.alike a b → I i → Meets D i (fun a b j => Kin.alike a b ∧ i < j ∧ I j) (f a) (f' b))
    (htop : ∀ i, I i → i ≤ top) (hl : top ≤ D.left.tokens.size) (hr : top ≤ D.right.tokens.size) (hab : Kin.alike a b)
    (hm : I m) : Meets D m (fun a b j => Kin.alike a b ∧ m ≤ j ∧ I j) (P.foldFrom f a) (P.foldFrom f' b) :=
  fun st st' => foldUpTo hf htop _ _ m a b hab hm (by omega) (by omega) st st'

end Repeated

section Tokens

/-- A token at hand is handed over, and the parser stays where it is. -/
theorem token_eq {env : Env} {st : State} {t : Token} (h : env.tokens[st.mark]? = some t) :
    ∃ s, P.token env st = .ok t s ∧ s.mark = st.mark ∧ s.memo = st.memo := by
  rw [P.token, h]
  dsimp only
  split
  · exact ⟨_, rfl, rfl, rfl⟩
  · exact ⟨_, rfl, rfl, rfl⟩

/-- The tokens at hand have the same lexeme, or there is none in either. -/
def Level (D : Duo) (m : Nat) : Prop :=
  D.right.tokens[m + D.shift]?.map (·.lexeme) = D.left.tokens[m]?.map (·.lexeme)

theorem token (h : Level D m) :
    Meets D m (fun t u i => t.lexeme = u.lexeme ∧ i = m ∧ D.left.tokens[m]? = some t) P.token P.token := by
  rintro st st' rfl hm' hk
  rw [Level, ← hm'] at h
  cases hl : D.left.tokens[st.mark]? with
  | none =>
    rw [hl] at h
    rw [P.token, P.token, hl, Option.map_eq_none_iff.mp h]
    have hhalt := D.halt
    cases hleft : D.left.halt <;> cases hright : D.right.halt <;> rw [hleft, hright] at hhalt
    · exact .fail hk
    · cases hhalt
    · cases hhalt
    · exact .stop ..
  | some t =>
    rw [hl] at h
    obtain ⟨u, hu, hlex⟩ := Option.map_eq_some_iff.mp h
    obtain ⟨s, hs, hmark, hmemo⟩ := token_eq hl
    obtain ⟨s', hs', hmark', -⟩ := token_eq hu
    rw [← hl, hs, hs']
    exact .ok ⟨hlex.symm, hmark, hl⟩ (by omega) (hmemo ▸ hk)

/-- Both parsers take the token at hand, or neither does. -/
theorem accept [Kin α] {f : Token → Option α} (h : Level D m)
    (hf : ∀ t u, t.lexeme = u.lexeme → Kin.alike (f t) (f u)) :
    Meets D m (fun a b i => Kin.alike a b ∧ i = m + 1 ∧ ∃ t, D.left.tokens[m]? = some t ∧ f t = some a)
      (P.accept f) (P.accept f) := by
  intro st st' hm hm' hk
  have ht := token h st st' hm hm' hk
  rw [P.accept, P.accept]
  generalize P.token D.left st = x at ht ⊢
  generalize P.token D.right st' = y at ht ⊢
  cases ht with
  | ok h hmark hkept =>
    rename_i t u s s'
    have hfu := hf t u h.1
    dsimp only
    generalize f u = b at hfu ⊢
    cases ha : f t with
    | none =>
      rw [ha] at hfu
      cases hfu
      exact .fail hkept
    | some a =>
      rw [ha] at hfu
      cases hfu with
      | some hab => exact .ok ⟨hab, congrArg (· + 1) h.2.1, t, h.2.2, ha⟩ (by dsimp only; omega) hkept
  | fail hkept => exact .fail hkept
  | cut hkept => exact .cut hkept
  | stop => exact .stop ..

end Tokens

end Meets

/-! ## Expressions -/

/-- Tokens that no part of an expression begins with or goes on with. -/
def Lexeme.isWall : Lexeme → Bool
  | .newline | .indent | .dedent | .finish | .symbol .semi => true
  | _ => false

/-- From the token `m` up to the token `stop` both runs read the same, and no expression goes on there. -/
structure Window (D : Duo) (m stop : Nat) : Prop where
  le : m ≤ stop
  left_le : stop ≤ D.left.tokens.size
  right_le : stop ≤ D.right.tokens.size
  level : ∀ i, m ≤ i → i ≤ stop → Meets.Level D i
  wall : ∀ t, D.left.tokens[stop]? = some t → t.lexeme.isWall = true

theorem Window.later {D : Duo} {m i stop : Nat} (h : Window D m stop) (hi : m ≤ i) (hle : i ≤ stop) : Window D i stop :=
  { h with le := hle, level := fun j hj => h.level j (by omega) }

/-- The rules that expressions are made of. A rule calls another without reading a token only if that is of lower
rank. -/
def Parse.Rule.rank : Rule → Nat
  | .strings | .lambdaParams => 0
  | .primary | .targetPrimary | .annotatedTarget | .closedPattern => 1
  | .awaitPrimary | .targetWithStarAtom | .deleteTarget | .singleTarget | .pattern => 2
  | .factor | .starTarget => 3
  | .bitwiseOr => 4
  | .inversion => 5
  | .conjunction => 6
  | .disjunction => 7
  | .expression => 8
  | .starExpression | .namedExpression => 9
  | .arguments | .simpleStatement => 10
  | .block | .elifClause => 11
  | .statements => 12

theorem Parse.Rule.rank_lt (r : Rule) : r.rank < 13 := by cases r <;> decide

/-- The rules that read no further than the end of an expression or a simple statement. -/
def Parse.Rule.isInner : Rule → Bool
  | .statements | .block | .elifClause => false
  | _ => true

/-- When what a rule answers is the same but for positions. -/
def Parse.Rule.alike : (r : Rule) → r.Out → r.Out → Prop
  | .statements | .block => Kin.alike (α := List Stmt)
  | .simpleStatement | .elifClause => Kin.alike (α := Stmt)
  | .arguments => Kin.alike (α := Arguments)
  | .lambdaParams => Kin.alike (α := Params)
  | .pattern | .closedPattern => Kin.alike (α := Pattern)
  | .expression | .starExpression | .namedExpression | .disjunction | .conjunction | .inversion | .bitwiseOr | .factor
  | .awaitPrimary | .primary | .strings | .targetPrimary | .starTarget | .targetWithStarAtom | .deleteTarget
  | .singleTarget | .annotatedTarget => Kin.alike (α := Expr)

/-- The rules do the same, those of a rank below `b` from the token `m` on and all of them behind it. -/
structure Ready (D : Duo) (g g' : Grammar) (b m stop : Nat) : Prop where
  here : ∀ r : Rule, r.isInner = true → r.rank < b →
    Meets D m (fun a b i => r.alike a b ∧ m < i ∧ i ≤ stop) (g r) (g' r)
  later : ∀ j, m < j → j ≤ stop → ∀ r : Rule, r.isInner = true →
    Meets D j (fun a b i => r.alike a b ∧ j < i ∧ i ≤ stop) (g r) (g' r)

theorem Ready.behind {D : Duo} {g g' : Grammar} {b m i stop : Nat} (h : Ready D g g' b m stop) (b' : Nat) (hi : m < i)
    (hle : i ≤ stop) : Ready D g g' b' i stop where
  here r hr _ := h.later i hi hle r hr
  later j hj := h.later j (by omega)

theorem Ready.still {D : Duo} {g g' : Grammar} {b m i stop : Nat} (h : Ready D g g' b m stop) (hi : m ≤ i)
    (hle : i ≤ stop) : Ready D g g' b i stop := by
  rcases Nat.eq_or_lt_of_le hi with rfl | hlt
  · exact h
  · exact h.behind b hlt hle

/-- Two parsers made of rules that do the same do the same, inside an expression. Where they read nothing first, they call
rules of a rank below `b` only. They go on by `d` tokens at least. -/
class Same (D : Duo) (g g' : Grammar) (b : Nat) (d : outParam Nat) {α : Type} [Kin α] (p q : P α) : Prop where
  meets : ∀ m stop, Window D m stop → Ready D g g' b m stop →
    Meets D m (fun a b i => Kin.alike a b ∧ m + d ≤ i ∧ i ≤ stop) p q

namespace Same

variable {D : Duo} {g g' : Grammar} {b d : Nat} {α β : Type} [Kin α] [Kin β] {p p' q q' : P α}

theorem weaken {d' : Nat} (h : Same D g g' b d p q) (hd : d' ≤ d) : Same D g g' b d' p q where
  meets m stop hw hr := (h.meets m stop hw hr).mono fun _ _ _ h => ⟨h.1, by omega, h.2.2⟩

/-- What comes behind a token that was read may call every rule. -/
theorem bind_one {f f' : α → P β} (hp : Same D g g' b 1 p q)
    (hf : ∀ a a', Kin.alike a a' → Same D g g' 13 d (f a) (f' a')) : Same D g g' b 1 (p >>= f) (q >>= f') where
  meets m stop hw hr := (hp.meets m stop hw hr).bind fun a a' i h =>
    ((hf a a' h.1).meets i stop (hw.later (by omega) h.2.2) (hr.behind 13 (by omega) h.2.2)).mono
      fun _ _ _ h' => ⟨h'.1, by omega, h'.2.2⟩

theorem bind_zero {f f' : α → P β} (hp : Same D g g' b 0 p q)
    (hf : ∀ a a', Kin.alike a a' → Same D g g' b d (f a) (f' a')) : Same D g g' b d (p >>= f) (q >>= f') where
  meets m stop hw hr := (hp.meets m stop hw hr).bind fun a a' i h =>
    ((hf a a' h.1).meets i stop (hw.later h.2.1 h.2.2) (hr.still h.2.1 h.2.2)).mono
      fun _ _ _ h' => ⟨h'.1, by omega, h'.2.2⟩

/-! There is an instance for every way to build a parser. -/

instance {f f' : α → P β} [hp : Same D g g' b 0 p q] [hf : ∀ x : Akin α, Same D g g' b d (f x.left) (f' x.right)] :
    Same D g g' b d (p >>= f) (q >>= f') :=
  bind_zero hp fun a a' h => hf ⟨a, a', h⟩

instance {f f' : α → P β} [hp : Same D g g' b 1 p q] [hf : ∀ x : Akin α, Same D g g' 13 d (f x.left) (f' x.right)] :
    Same D g g' b 1 (p >>= f) (q >>= f') :=
  bind_one hp fun a a' h => hf ⟨a, a', h⟩

-- answers that are taken apart at once
instance {γ : Type} [Kin γ] {p q : P (α × β)} {f f' : α × β → P γ} [hp : Same D g g' b 1 p q]
    [hf : ∀ (x : Akin α) (y : Akin β), Same D g g' 13 d (f (x.left, y.left)) (f' (x.right, y.right))] :
    Same D g g' b 1 (p >>= f) (q >>= f') :=
  bind_one hp fun a a' h => hf ⟨a.1, a'.1, h.1⟩ ⟨a.2, a'.2, h.2⟩

instance {γ : Type} [Kin γ] {p q : P (α × β)} {f f' : α × β → P γ} [hp : Same D g g' b 0 p q]
    [hf : ∀ (x : Akin α) (y : Akin β), Same D g g' b d (f (x.left, y.left)) (f' (x.right, y.right))] :
    Same D g g' b d (p >>= f) (q >>= f') :=
  bind_zero hp fun a a' h => hf ⟨a.1, a'.1, h.1⟩ ⟨a.2, a'.2, h.2⟩

-- answers that are not used
instance {r r' : P β} [hp : Same D g g' b 1 p q] [hr : Same D g g' 13 d r r'] :
    Same D g g' b 1 (p >>= fun _ => r) (q >>= fun _ => r') :=
  bind_one hp fun _ _ _ => hr

instance {a a' : α} [h : Alike a a'] : Same D g g' b 0 (Pure.pure a : P α) (Pure.pure a') :=
  ⟨fun _ _ hw _ => .pure ⟨h.alike, Nat.le_refl _, hw.le⟩⟩

instance : Same D g g' b 1 (P.fail : P α) P.fail := ⟨fun _ _ _ _ => .fail⟩

instance : Same D g g' b 1 (P.cut : P α) P.cut := ⟨fun _ _ _ _ => .cut⟩

instance [hp : Same D g g' b 1 p p'] [hq : Same D g g' b d q q'] : Same D g g' b 0 (p <|> q) (p' <|> q') where
  meets m stop hw hr := .orElse ((hp.weaken (Nat.zero_le 1)).meets m stop hw hr)
    ((hq.weaken (Nat.zero_le d)).meets m stop hw hr)

instance [hp : Same D g g' b 0 p p'] [hq : Same D g g' b d q q'] : Same D g g' b 0 (p <|> q) (p' <|> q') where
  meets m stop hw hr := .orElse (hp.meets m stop hw hr) ((hq.weaken (Nat.zero_le d)).meets m stop hw hr)

theorem orElse (hp : Same D g g' b 1 p p') (hq : Same D g g' b 1 q q') : Same D g g' b 1 (p <|> q) (p' <|> q') where
  meets m stop hw hr := .orElse (hp.meets m stop hw hr) (hq.meets m stop hw hr)

instance [hp : Same D g g' b 1 p p'] [hq : Same D g g' b 1 q q'] : Same D g g' b 1 (p <|> q) (p' <|> q') :=
  hp.orElse hq

instance [hp : Same D g g' b d p q] : Same D g g' b d (P.rule p) (P.rule q) :=
  ⟨fun m stop hw hr => (hp.meets m stop hw hr).rule⟩

instance [hp : Same D g g' b d p q] : Same D g g' b d (P.committed p) (P.committed q) :=
  ⟨fun m stop hw hr => (hp.meets m stop hw hr).committed⟩

instance [hp : Same D g g' b d p q] : Same D g g' b 0 p.optional q.optional where
  meets m stop hw hr := (hp.meets m stop hw hr).optional (fun _ _ _ h => ⟨.some h.1, by omega, h.2.2⟩)
    ⟨.none, Nat.le_refl _, hw.le⟩

instance [hp : Same D g g' b d p q] : Same D g g' b 0 p.ahead q.ahead :=
  ⟨fun m stop hw hr => (hp.meets m stop hw hr).ahead ⟨rfl, Nat.le_refl _, hw.le⟩⟩

instance [hp : Same D g g' b d p q] : Same D g g' b 0 p.notAhead q.notAhead :=
  ⟨fun m stop hw hr => (hp.meets m stop hw hr).notAhead ⟨rfl, Nat.le_refl _, hw.le⟩⟩

section Repeated

/-- A parser that goes on does so step by step up to the end of the expression. -/
theorem steps (hp : Same D g g' b 1 p q) {m stop : Nat} (hw : Window D m stop) (hr : Ready D g g' b m stop) (i : Nat)
    (hi : m ≤ i ∧ i ≤ stop) :
    Meets D i (fun a b j => Kin.alike a b ∧ i < j ∧ m ≤ j ∧ j ≤ stop) p q :=
  (hp.meets i stop (hw.later hi.1 hi.2) (hr.still hi.1 hi.2)).mono fun _ _ _ h => ⟨h.1, h.2.1, by omega, h.2.2⟩

instance [hp : Same D g g' b 1 p q] : Same D g g' b 0 p.many q.many where
  meets _ _ hw hr := (Meets.many (hp.steps hw hr) (fun _ hi => hi.2) hw.left_le hw.right_le
    ⟨Nat.le_refl _, hw.le⟩).mono fun _ _ _ h => ⟨h.1, h.2.1, h.2.2.2⟩

instance {f f' : α → P α} {a a' : α} [h : Alike a a'] [hf : ∀ x : Akin α, Same D g g' b 1 (f x.left) (f' x.right)] :
    Same D g g' b 0 (P.foldFrom f a) (P.foldFrom f' a') where
  meets _ _ hw hr := (Meets.foldFrom (fun a a' i h => (hf ⟨a, a', h⟩).steps hw hr i) (fun _ hi => hi.2) hw.left_le
    hw.right_le h.alike ⟨Nat.le_refl _, hw.le⟩).mono fun _ _ _ h => ⟨h.1, h.2.1, h.2.2.2⟩

/-- No rule is of a rank above all others. -/
theorem full (h : Same D g g' b d p q) : Same D g g' 13 d p q where
  meets m stop hw hr := h.meets m stop hw ⟨fun r hr' _ => hr.here r hr' r.rank_lt, hr.later⟩

instance [hp : Same D g g' b 1 p q] : Same D g g' b 1 (P.many1 p) (P.many1 q) := by
  have := hp.full
  unfold P.many1
  infer_instance

instance {s s' : P β} [hp : Same D g g' b 1 p q] [hs : Same D g g' 13 1 s s'] :
    Same D g g' b 1 (P.sepBy1 p s) (P.sepBy1 q s') := by
  have := hp.full
  unfold P.sepBy1
  infer_instance

end Repeated

section Leaves

instance (priority := low) {e : Nat} {c c' : Bool} [h : Alike c c'] [hp : Same D g g' b d p p'] [hq : Same D g g' b e q q'] :
    Same D g g' b 0 (if c = true then p else q) (if c' = true then p' else q') := by
  obtain rfl : c = c' := h.alike
  cases c
  · exact hq.weaken (Nat.zero_le e)
  · exact hp.weaken (Nat.zero_le d)

instance {c c' : Bool} [h : Alike c c'] [hp : Same D g g' b d p p'] [hq : Same D g g' b d q q'] :
    Same D g g' b d (if c = true then p else q) (if c' = true then p' else q') := by
  obtain rfl : c = c' := h.alike
  cases c
  · exact hq
  · exact hp

instance (kind : WarningKind) (text : String) (n n' : Nat) :
    Same D g g' b 0 (P.warn kind text n) (P.warn kind text n') :=
  ⟨fun _ _ hw _ _ _ hm hm' hk => .ok ⟨rfl, Nat.le_of_eq hm.symm, hm ▸ hw.le⟩ (hm'.trans (hm ▸ rfl)) hk⟩

instance (a a' : Place) : Same D g g' b 0 (P.spanFrom a) (P.spanFrom a') :=
  ⟨fun _ _ hw _ _ _ hm hm' hk => .ok ⟨trivial, Nat.le_of_eq hm.symm, hm ▸ hw.le⟩ (hm'.trans (hm ▸ rfl)) hk⟩

/-- The rules that explain errors are tried in neither run. -/
instance : Same D g g' b 1 (P.explaining p) (P.explaining q) where
  meets _ _ _ _ _ _ _ _ hk := by
    rw [P.explaining, P.explaining, D.explain.1, D.explain.2]
    exact .fail hk

/-- A parser that rejects whatever it reads. -/
theorem of_stop (hp : ∀ st, ∃ r, p D.left st = .stop r st) : Same D g g' b d p q where
  meets _ _ _ _ st _ _ _ _ := by
    obtain ⟨r, h⟩ := hp st
    rw [h]
    exact .stop ..

omit [Kin α] in
theorem stop_of_rejectLast (text : String) (env : Env) (st : State) :
    ∃ r, (P.rejectLast text : P α) env st = .stop r st := by
  rw [P.rejectLast, P.rejectLastAs]
  split
  · exact ⟨_, rfl⟩
  · split <;> exact ⟨_, rfl⟩

theorem of_reject (text : String) : Same D g g' b d (P.rejectLast text) q := of_stop (stop_of_rejectLast text _)

/-- Nothing comes behind a rejection. -/
theorem of_reject_bind {γ : Type} (text : String) (k : γ → P α) : Same D g g' b d (P.rejectLast text >>= k) q :=
  of_stop fun st => by
    obtain ⟨r, h⟩ := stop_of_rejectLast (α := γ) text D.left st
    refine ⟨r, ?_⟩
    change P.bind _ _ D.left st = _
    rw [P.bind, h]

instance (text : String) (q : P α) : Same D g g' b 1 (P.rejectLast text) q := of_reject text

instance (s t : Span) (text : String) (q : P α) : Same D g g' b 1 (P.rejectRange s t text) q :=
  of_stop fun _ => ⟨_, rfl⟩

instance (s : Span) (text : String) (q : P α) : Same D g g' b 1 (P.rejectSpan s text) q := of_stop fun _ => ⟨_, rfl⟩

instance (s : Span) (text : String) (q : P α) : Same D g g' b 1 (P.rejectFrom s text) q :=
  of_stop fun st => by
    rw [P.rejectFrom]
    split <;> exact ⟨_, rfl⟩

instance (kind : RejectionKind) (text : String) (l c m : Nat) (i : Int) (q : P α) :
    Same D g g' b 1 (P.rejectAt kind text l c m i) q := of_stop fun _ => ⟨_, rfl⟩

omit [Kin α] in
/-- What depends on the world of a run. -/
theorem bind_env {f f' : Env → P β} (h : Same D g g' b d (f D.left) (f' D.right)) :
    Same D g g' b d (P.env >>= f) (P.env >>= f') :=
  ⟨fun m stop hw hr st st' hm hm' hk => h.meets m stop hw hr st st' hm hm' hk⟩

end Leaves

section Tokens

instance : Same D g g' b 0 P.token P.token where
  meets m _ hw _ := (Meets.token (hw.level m (Nat.le_refl m) hw.le)).mono
    fun _ _ _ h => ⟨h.1, Nat.le_of_eq h.2.1.symm, h.2.1 ▸ hw.le⟩

/-- What is done next depends on the token at hand. -/
theorem bind_token {f f' : Token → P β} (hf : ∀ t u, t.lexeme = u.lexeme → ∀ m stop, Window D m stop →
    Ready D g g' b m stop → D.left.tokens[m]? = some t →
      Meets D m (fun a b i => Kin.alike a b ∧ m + d ≤ i ∧ i ≤ stop) (f t) (f' u)) :
    Same D g g' b d (P.token >>= f) (P.token >>= f') where
  meets m stop hw hr := (Meets.token (hw.level m (Nat.le_refl m) hw.le)).bind fun t u i h => by
    obtain ⟨htu, rfl, ht⟩ := h
    exact hf t u htu i stop hw hr ht

/-- Past a token that ends no expression every rule may be called. -/
theorem advance {t : Token} (ht : t.lexeme.isWall = false) (h : Same D g g' 13 d p q) {m stop : Nat}
    (hw : Window D m stop) (hr : Ready D g g' b m stop) (hm : D.left.tokens[m]? = some t) :
    Meets D m (fun a b i => Kin.alike a b ∧ m + 1 ≤ i ∧ i ≤ stop) (P.advance >>= fun _ => p)
      (P.advance >>= fun _ => q) := by
  have hlt : m < stop := by
    refine Nat.lt_of_le_of_ne hw.le ?_
    rintro rfl
    rw [hw.wall t hm] at ht
    cases ht
  have hadvance : Meets D m (fun _ _ i => i = m + 1) P.advance P.advance :=
    fun st st' hst hst' hk => .ok (congrArg (· + 1) hst) (by dsimp only; omega) hk
  refine hadvance.bind fun _ _ i hi => ?_
  subst hi
  exact (h.meets (m + 1) stop (hw.later (Nat.le_succ m) hlt) (hr.behind 13 (Nat.lt_succ_self m) hlt)).mono
    fun _ _ _ h => ⟨h.1, by omega, h.2.2⟩

instance : Same D g g' b 0 P.start P.start := by
  unfold P.start
  infer_instance

theorem spanned {p q : P (Span → α)} (hp : Same D g g' b 1 p q) : Same D g g' b 1 (P.spanned p) (P.spanned q) := by
  refine bind_zero inferInstance fun a a' _ => bind_one (d := 0) hp fun f f' hf => ?_
  have (s s' : Span) : Alike (f s) (f' s') := ⟨hf s s'⟩
  infer_instance

instance {p q : P (Span → α)} [hp : Same D g g' b 1 p q] : Same D g g' b 1 (P.spanned p) (P.spanned q) := hp.spanned

/-- What is read of a token is the same in both runs, and nothing ends an expression. -/
theorem accept {f : Token → Option α} (hf : ∀ t u, t.lexeme = u.lexeme → Kin.alike (f t) (f u))
    (hwall : ∀ t, t.lexeme.isWall = true → f t = none) : Same D g g' b 1 (P.accept f) (P.accept f) where
  meets m stop hw _ := (Meets.accept (hw.level m (Nat.le_refl m) hw.le) hf).mono fun a a' i h => by
    obtain ⟨haa, rfl, t, ht, hfa⟩ := h
    refine ⟨haa, Nat.le_refl _, Nat.lt_of_le_of_ne hw.le ?_⟩
    rintro rfl
    rw [hwall t (hw.wall t ht)] at hfa
    cases hfa

/-- Where the answer is no tree, but told by the lexeme. -/
theorem accept_lexeme {f : Token → Option α} (hrefl : ∀ a : α, Kin.alike a a)
    (hf : ∀ t u, t.lexeme = u.lexeme → f t = f u) (hwall : ∀ t, t.lexeme.isWall = true → f t = none) :
    Same D g g' b 1 (P.accept f) (P.accept f) := by
  refine accept (fun t u h => ?_) hwall
  rw [hf t u h]
  cases f u with
  | none => exact .none
  | some a => exact .some (hrefl a)

/-- A symbol that does not part statements. -/
@[reducible] def inner : Sym → Bool
  | .semi => false
  | _ => true

/-- Two truth values that are the same as they stand. -/
class Evident (c c' : Bool) : Prop where
  eq : c = c'

instance (c : Bool) : Evident c c := ⟨rfl⟩

/-- A token that is taken if it has a certain lexeme, for its position. -/
theorem taken {l : Lexeme} (hl : l.isWall = false) :
    Same D g g' b 1 (P.accept fun t => if t.lexeme = l then some (P.spanOf t) else none)
      (P.accept fun t => if t.lexeme = l then some (P.spanOf t) else none) := by
  refine accept (fun t u h => ?_) fun t ht => if_neg ?_
  · rw [h]
    split
    · exact .some trivial
    · exact .none
  · rintro rfl
    rw [hl] at ht
    cases ht

instance (s : Sym) [h : Evident (inner s) true] : Same D g g' b 1 (P.symbol s) (P.symbol s) :=
  taken (by
    have h := h.eq
    cases s <;> first | rfl | cases h)

instance (k : Keyword) : Same D g g' b 1 (P.word k) (P.word k) := taken rfl

/-- Where a symbol must follow, there is none to end an expression. -/
instance (s : Sym) (spelling : String) [h : Evident (inner s) true] :
    Same D g g' b 1 (P.forced s spelling) (P.forced s spelling) := by
  refine bind_token fun t u htu m stop hw hr ht => ?_
  rw [htu]
  split
  case isTrue hs =>
    have hwall : t.lexeme.isWall = false := by
      rw [htu, hs]
      have h := h.eq
      cases s <;> first | rfl | cases h
    exact Same.advance hwall (d := 0) inferInstance hw hr ht
  case isFalse =>
    split
    · exact (of_stop fun _ => ⟨_, rfl⟩ : Same D g g' b 1 _ _).meets m stop hw hr
    · exact (of_stop fun _ => ⟨_, rfl⟩ : Same D g g' b 1 _ _).meets m stop hw hr

instance : Same D g g' b 1 P.name P.name := by
  refine accept (fun t u h => ?_) fun t ht => ?_
  · rw [h]
    split
    · exact .some ⟨rfl, trivial⟩
    · exact .none
  · split
    · rename_i n hn
      rw [hn] at ht
      cases ht
    · rfl

instance (w : String) : Same D g g' b 1 (P.softWord w) (P.softWord w) := by
  refine accept (fun t u h => ?_) fun t ht => ?_
  · rw [h]
    split
    · split
      · exact .some trivial
      · exact .none
    · exact .none
  · split
    · rename_i n hn
      rw [hn] at ht
      cases ht
    · rfl

/-- A look at the token at hand alone. -/
theorem meets_look {f : Token → Option α} (hf : ∀ t u, t.lexeme = u.lexeme → Kin.alike (f t) (f u)) {m stop : Nat}
    (hw : Window D m stop) : Meets D m (fun _ _ _ => True) (P.accept f) (P.accept f) :=
  (Meets.accept (hw.level m (Nat.le_refl m) hw.le) hf).mono fun _ _ _ _ => trivial

theorem lexeme_alike (l : Lexeme) (t u : Token) (h : t.lexeme = u.lexeme) :
    Kin.alike (if t.lexeme = l then some () else none) (if u.lexeme = l then some () else none) := by
  rw [h]
  split
  · exact .some rfl
  · exact .none

instance : Same D g g' b 0 (P.notAhead P.layout) (P.notAhead P.layout) where
  meets _ _ hw _ := (meets_look (fun t u h => by
    rw [h]
    split
    · exact .some rfl
    · exact .none) hw).notAhead ⟨rfl, Nat.le_refl _, hw.le⟩

/-- Whether a statement ends here. -/
instance : Same D g g' b 0 (P.ahead ((do let _ ← P.symbol .semi) <|> P.lexeme .newline))
    (P.ahead ((do let _ ← P.symbol .semi) <|> P.lexeme .newline)) where
  meets m stop hw _ := by
    have hsemi : Meets D m (fun _ _ _ => True) (P.symbol .semi) (P.symbol .semi) := meets_look (fun t u h => by
      rw [h]
      split
      · exact .some trivial
      · exact .none) hw
    have hnewline : Meets D m (fun _ _ _ => True) (P.lexeme .newline) (P.lexeme .newline) :=
      meets_look (lexeme_alike .newline) hw
    exact .ahead (.orElse (hsemi.bind fun _ _ _ _ => .pure trivial) hnewline) ⟨rfl, Nat.le_refl _, hw.le⟩

end Tokens

end Same

end Evalbox.Lang
