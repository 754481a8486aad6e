import Evalbox.Proofs.Lang.SameExpressions

/-!
# Statements do the same in two runs

Two runs that read the same tokens up to some place do the same with all statements in front of it, though what comes
behind is different: a block does not reach further than its indentation (`Env.height`), and what stands at that place
goes on with no statement (`Stage`).
-/

namespace Evalbox.Lang

open Parse

/-- How far a token moves the level of indentation. -/
def Lexeme.rise : Lexeme → Int
  | .indent => 1
  | .dedent => -1
  | _ => 0

/-- The level of indentation in front of a token. -/
def Parse.Env.height (env : Env) : Nat → Int
  | 0 => 0
  | i + 1 => env.height i + match env.tokens[i]? with
    | some t => t.lexeme.rise
    | none => 0

/-- Tokens that end a line or a block. -/
def Lexeme.ends : Lexeme → Bool
  | .newline | .dedent => true
  | _ => false

/-- Tokens that go on with a compound statement or open a block. -/
@[reducible] def Lexeme.joins : Lexeme → Bool
  | .word .else_ | .word .elif_ | .word .except_ | .word .finally_ | .word .def_ | .word .class_ | .word .async_
  | .symbol .at_ | .indent => true
  | _ => false

/-- The place behind a line or a block, or the first one. -/
def Parse.Env.Fresh (env : Env) (i : Nat) : Prop := ∀ k, k + 1 = i → ∃ t, env.tokens[k]? = some t ∧ t.lexeme.ends = true

/-- Both runs read the same up to the token `hi`, which begins a line of the lowest level and joins nothing. -/
structure Stage (D : Duo) (hi : Nat) : Prop where
  left_lt : hi < D.left.tokens.size
  right_lt : hi + D.shift < D.right.tokens.size
  level : ∀ i, i < hi → Meets.Level D i
  fresh : D.left.Fresh hi
  above : ∀ i, i < hi → D.left.height hi ≤ D.left.height i
  left_joins : ∀ t, D.left.tokens[hi]? = some t → t.lexeme.joins = false
  right_joins : ∀ t, D.right.tokens[hi + D.shift]? = some t → t.lexeme.joins = false

/-- Where a parser may stand: in front of the last token, at the begin of a line, or in a block. -/
inductive Zone where
  | inside | edge | raised

/-- A place is of a kind. -/
def Zone.Has (D : Duo) (hi : Nat) : Zone → Nat → Prop
  | .inside, i => i < hi
  | .edge, i => i ≤ hi ∧ D.left.Fresh i
  | .raised, i => i < hi ∧ D.left.height hi < D.left.height i

theorem Zone.Has.le {D : Duo} {hi i : Nat} {z : Zone} (h : z.Has D hi i) : i ≤ hi := by
  cases z with
  | inside => exact Nat.le_of_lt h
  | edge => exact h.1
  | raised => exact Nat.le_of_lt h.1

/-- What a rule does the same in two runs, from a token on: what is of an expression up to its end, and a block or a
statement up to some place of the same level. -/
inductive Due (D : Duo) (hi : Nat) : (r : Rule) → Nat → (r.Out → r.Out → Nat → Prop) → Prop
  | inner {r : Rule} {m stop : Nat} (hr : r.isInner = true) (hw : Window D m stop) :
    Due D hi r m fun a b i => r.alike a b ∧ m < i ∧ i ≤ stop
  | block {m : Nat} (S : Stage D hi) (hm : Zone.inside.Has D hi m) :
    Due D hi .block m fun a b i =>
      Kin.alike a b ∧ m + 1 ≤ i ∧ Zone.edge.Has D hi i ∧ D.left.height i = D.left.height m
  | elifClause {m : Nat} (S : Stage D hi) (hm : Zone.edge.Has D hi m) :
    Due D hi .elifClause m fun a b i =>
      Kin.alike a b ∧ m + 1 ≤ i ∧ Zone.edge.Has D hi i ∧ D.left.height i = D.left.height m
  | statements {m : Nat} (S : Stage D hi) (hm : Zone.raised.Has D hi m) :
    Due D hi .statements m fun a b i =>
      Kin.alike a b ∧ m + 1 ≤ i ∧ Zone.raised.Has D hi i ∧ D.left.height i = D.left.height m

theorem Due.le {D : Duo} {hi : Nat} {r : Rule} {m : Nat} {T : r.Out → r.Out → Nat → Prop} (h : Due D hi r m T) :
    m ≤ D.left.tokens.size := by
  cases h with
  | inner _ hw => exact Nat.le_trans hw.le hw.left_le
  | block S hm | elifClause S hm | statements S hm => exact Nat.le_trans hm.le (Nat.le_of_lt S.left_lt)

/-- The rules do the same, those of a rank below `b` from the token `m` on and all of them behind it. -/
structure Poised (D : Duo) (hi : Nat) (g g' : Grammar) (b m : Nat) : Prop where
  here : ∀ r : Rule, r.rank < b → ∀ T, Due D hi r m T → Meets D m T (g r) (g' r)
  later : ∀ j, m < j → ∀ r T, Due D hi r j T → Meets D j T (g r) (g' r)

theorem Poised.ready {D : Duo} {hi : Nat} {g g' : Grammar} {b m stop : Nat} (h : Poised D hi g g' b m)
    (hw : Window D m stop) : Ready D g g' b m stop where
  here r hr hb := h.here r hb _ (.inner hr hw)
  later j hj hle r hr := h.later j hj r _ (.inner hr (hw.later (Nat.le_of_lt hj) hle))

theorem Poised.behind {D : Duo} {hi : Nat} {g g' : Grammar} {b m i : Nat} (h : Poised D hi g g' b m) (b' : Nat)
    (hi' : m < i) : Poised D hi g g' b' i where
  here r _ := h.later i hi' r
  later j hj := h.later j (by omega)

theorem Poised.still {D : Duo} {hi : Nat} {g g' : Grammar} {b m i : Nat} (h : Poised D hi g g' b m) (hi' : m ≤ i) :
    Poised D hi g g' b i := by
  rcases Nat.eq_or_lt_of_le hi' with rfl | hlt
  · exact h
  · exact h.behind b hlt

/-- Two parsers of statements do the same, if they begin at a place of the kind `z`. They end at one of the kind `y` and
of the same level. -/
class Moves {D : Duo} {hi : Nat} (S : Stage D hi) (g g' : Grammar) (b : Nat) (z : Zone) (d : outParam Nat)
    (y : outParam Zone) {α : Type} [Kin α] (p q : P α) : Prop where
  meets : ∀ m, z.Has D hi m → Poised D hi g g' b m → Meets D m
    (fun a b i => Kin.alike a b ∧ m + d ≤ i ∧ y.Has D hi i ∧ D.left.height i = D.left.height m) p q

theorem Lexeme.rise_of_not_wall {l : Lexeme} (h : l.isWall = false) : l.rise = 0 := by
  cases l <;> first | rfl | cases h

theorem Lexeme.wall_of_ends {l : Lexeme} (h : l.ends = true) : l.isWall = true := by
  cases l <;> first | rfl | cases h

theorem Parse.Env.height_succ {env : Env} {i : Nat} {t : Token} (h : env.tokens[i]? = some t) :
    env.height (i + 1) = env.height i + t.lexeme.rise := by
  rw [height, h]

namespace Stage

variable {D : Duo} {hi : Nat} (S : Stage D hi)
include S

/-- A token that does not end a line has another behind it. -/
theorem succ_lt {m : Nat} {t : Token} (hm : m < hi) (ht : D.left.tokens[m]? = some t) (hends : t.lexeme.ends = false) :
    m + 1 < hi := by
  refine Nat.lt_of_le_of_ne hm fun heq => ?_
  obtain ⟨u, hu, huends⟩ := S.fresh m heq
  rw [ht] at hu
  obtain rfl := Option.some.inj hu
  rw [hends] at huends
  cases huends

/-- From every place inside, what ends an expression is inside too, on the same level. -/
theorem exists_window (m : Nat) (hm : m < hi) : ∃ stop, Window D m stop ∧ stop < hi ∧
    ∀ i, m ≤ i → i ≤ stop → D.left.height i = D.left.height m := by
  obtain ⟨t, ht⟩ : ∃ t, D.left.tokens[m]? = some t :=
    ⟨_, Array.getElem?_eq_getElem (Nat.lt_trans hm S.left_lt)⟩
  cases hwall : t.lexeme.isWall with
  | true =>
    refine ⟨m, ⟨Nat.le_refl m, by have := S.left_lt; omega, by have := S.right_lt; omega, fun i hmi him => ?_,
      fun u hu => ?_⟩, hm, fun i hmi him => ?_⟩
    · exact Nat.le_antisymm hmi him ▸ S.level m hm
    · rw [ht] at hu
      exact Option.some.inj hu ▸ hwall
    · rw [Nat.le_antisymm hmi him]
  | false =>
    have hends : t.lexeme.ends = false := by
      cases h : t.lexeme.ends with
      | true => exact absurd (Lexeme.wall_of_ends h) (by rw [hwall]; exact Bool.false_ne_true)
      | false => rfl
    obtain ⟨stop, hw, hstop, hheight⟩ := exists_window (m + 1) (S.succ_lt hm ht hends)
    refine ⟨stop, { hw with le := Nat.le_of_succ_le hw.le, level := fun i hmi him => ?_ }, hstop, fun i hmi him => ?_⟩
    · rcases Nat.eq_or_lt_of_le hmi with rfl | hlt
      · exact S.level m hm
      · exact hw.level i hlt him
    · rcases Nat.eq_or_lt_of_le hmi with rfl | hlt
      · rfl
      · rw [hheight i hlt him, Env.height_succ ht, Lexeme.rise_of_not_wall hwall, Int.add_zero]
termination_by hi - m

variable {α : Type} [Kin α] {f : Token → Option α}

/-- A token that both runs read in front of the place `hi`. -/
theorem take (hf : ∀ t u, t.lexeme = u.lexeme → Kin.alike (f t) (f u)) {m : Nat} (hm : m < hi) :
    Meets D m (fun a a' i => Kin.alike a a' ∧ i = m + 1 ∧ ∃ t, D.left.tokens[m]? = some t ∧ f t = some a)
      (P.accept f) (P.accept f) :=
  Meets.accept (S.level m hm) hf

omit [Kin α] in
/-- Neither run takes what joins a statement at the place `hi`. -/
theorem refuse (hf : ∀ t, t.lexeme.joins = false → f t = none)
    {T : α → α → Nat → Prop} : Meets D hi T (P.accept f) (P.accept f) := by
  rintro st st' hm hm' hk
  obtain ⟨t, ht⟩ : ∃ t, D.left.tokens[st.mark]? = some t := ⟨_, Array.getElem?_eq_getElem (hm ▸ S.left_lt)⟩
  obtain ⟨u, hu⟩ : ∃ u, D.right.tokens[st'.mark]? = some u := ⟨_, Array.getElem?_eq_getElem (hm' ▸ S.right_lt)⟩
  obtain ⟨s, hs, -, hmemo⟩ := Meets.token_eq ht
  obtain ⟨s', hs', -, -⟩ := Meets.token_eq hu
  rw [P.accept, P.accept, hs, hs']
  dsimp only
  rw [hf t (S.left_joins t (hm ▸ ht)), hf u (S.right_joins u (hm' ▸ hu))]
  exact .fail (hmemo ▸ hk)

/-- A block is on a level above the lowest one. -/
theorem indent {m : Nat} (hm : Zone.edge.Has D hi m) :
    Meets D m (fun _ _ i => i = m + 1 ∧ Zone.raised.Has D hi i ∧ D.left.height i = D.left.height m + 1)
      (P.lexeme .indent) (P.lexeme .indent) := by
  rcases Nat.eq_or_lt_of_le hm.1 with rfl | hlt
  · exact S.refuse fun t ht => if_neg fun hl => by rw [hl] at ht; cases ht
  · refine (S.take (Same.lexeme_alike .indent) hlt).mono fun a a' i h => ?_
    obtain ⟨-, rfl, t, ht, hfa⟩ := h
    have hlex := (Option.ite_none_right_eq_some.mp hfa).1
    have hheight : D.left.height (m + 1) = D.left.height m + 1 := by rw [Env.height_succ ht, hlex]; rfl
    have := S.above m hlt
    exact ⟨rfl, ⟨S.succ_lt hlt ht (by rw [hlex]; rfl), by omega⟩, hheight⟩

theorem dedent {m : Nat} (hm : Zone.raised.Has D hi m) :
    Meets D m (fun _ _ i => i = m + 1 ∧ Zone.edge.Has D hi i ∧ D.left.height i = D.left.height m - 1)
      (P.lexeme .dedent) (P.lexeme .dedent) := by
  refine (S.take (Same.lexeme_alike .dedent) hm.1).mono fun a a' i h => ?_
  obtain ⟨-, rfl, t, ht, hfa⟩ := h
  have hlex := (Option.ite_none_right_eq_some.mp hfa).1
  refine ⟨rfl, ⟨hm.1, fun k hk => ?_⟩, by rw [Env.height_succ ht, hlex]; rfl⟩
  obtain rfl : k = m := by omega
  exact ⟨t, ht, by rw [hlex]; rfl⟩

end Stage

namespace Moves

variable {D : Duo} {hi : Nat} {S : Stage D hi} {g g' : Grammar} {b d : Nat} {y z : Zone} {α β : Type} [Kin α] [Kin β]
  {p p' q q' : P α}

theorem weaken {d' : Nat} (h : Moves S g g' b z d y p q) (hd : d' ≤ d) : Moves S g g' b z d' y p q where
  meets m hm hg := (h.meets m hm hg).mono fun _ _ _ h => ⟨h.1, by omega, h.2.2⟩

theorem bind_one {x : Zone} {f f' : α → P β} (hp : Moves S g g' b z 1 x p q)
    (hf : ∀ a a', Kin.alike a a' → Moves S g g' 13 x d y (f a) (f' a')) :
    Moves S g g' b z 1 y (p >>= f) (q >>= f') where
  meets m hm hg := (hp.meets m hm hg).bind fun a a' i h =>
    ((hf a a' h.1).meets i h.2.2.1 (hg.behind 13 (by omega))).mono
      fun _ _ _ h' => ⟨h'.1, by omega, h'.2.2.1, h'.2.2.2.trans h.2.2.2⟩

theorem bind_zero {x : Zone} {f f' : α → P β} (hp : Moves S g g' b z 0 x p q)
    (hf : ∀ a a', Kin.alike a a' → Moves S g g' b x d y (f a) (f' a')) :
    Moves S g g' b z d y (p >>= f) (q >>= f') where
  meets m hm hg := (hp.meets m hm hg).bind fun a a' i h =>
    ((hf a a' h.1).meets i h.2.2.1 (hg.still (by omega))).mono
      fun _ _ _ h' => ⟨h'.1, by omega, h'.2.2.1, h'.2.2.2.trans h.2.2.2⟩

/-- What stays in an expression. -/
instance (priority := low) [h : Same D g g' b d p q] : Moves S g g' b .inside d .inside p q where
  meets m hm hg := by
    obtain ⟨stop, hw, hstop, hheight⟩ := S.exists_window m hm
    exact (h.meets m stop hw (hg.ready hw)).mono
      fun _ _ i h => ⟨h.1, h.2.1, Nat.lt_of_le_of_lt h.2.2 hstop, hheight i (by omega) h.2.2⟩

/-! There is an instance for every way to build a parser. -/

instance {x : Zone} {f f' : α → P β} [hp : Moves S g g' b z 0 x p q]
    [hf : ∀ a : Akin α, Moves S g g' b x d y (f a.left) (f' a.right)] : Moves S g g' b z d y (p >>= f) (q >>= f') :=
  bind_zero hp fun a a' h => hf ⟨a, a', h⟩

instance {x : Zone} {f f' : α → P β} [hp : Moves S g g' b z 1 x p q]
    [hf : ∀ a : Akin α, Moves S g g' 13 x d y (f a.left) (f' a.right)] : Moves S g g' b z 1 y (p >>= f) (q >>= f') :=
  bind_one hp fun a a' h => hf ⟨a, a', h⟩

-- answers that are taken apart at once
instance {γ : Type} [Kin γ] {x : Zone} {p q : P (α × β)} {f f' : α × β → P γ} [hp : Moves S g g' b z 1 x p q]
    [hf : ∀ (a : Akin α) (c : Akin β), Moves S g g' 13 x d y (f (a.left, c.left)) (f' (a.right, c.right))] :
    Moves S g g' b z 1 y (p >>= f) (q >>= f') :=
  bind_one hp fun a a' h => hf ⟨a.1, a'.1, h.1⟩ ⟨a.2, a'.2, h.2⟩

-- answers that are not used
instance {x : Zone} {r r' : P β} [hp : Moves S g g' b z 1 x p q] [hr : Moves S g g' 13 x d y r r'] :
    Moves S g g' b z 1 y (p >>= fun _ => r) (q >>= fun _ => r') :=
  bind_one hp fun _ _ _ => hr

instance {a a' : α} [h : Alike a a'] : Moves S g g' b z 0 z (Pure.pure a : P α) (Pure.pure a') :=
  ⟨fun m hm _ => .pure ⟨h.alike, Nat.le_refl m, hm, rfl⟩⟩

theorem orElse (hp : Moves S g g' b z d y p p') (hq : Moves S g g' b z d y q q') :
    Moves S g g' b z d y (p <|> q) (p' <|> q') :=
  ⟨fun m hm hg => .orElse (hp.meets m hm hg) (hq.meets m hm hg)⟩

instance [hp : Moves S g g' b z d y p p'] [hq : Moves S g g' b z d y q q'] :
    Moves S g g' b z d y (p <|> q) (p' <|> q') := hp.orElse hq

/-- The rules that explain errors are tried in neither run. -/
instance [hq : Moves S g g' b z d y q q'] : Moves S g g' b z d y (P.explaining p <|> q) (P.explaining p' <|> q') where
  meets m hm hg := by
    refine .orElse (fun st st' _ _ hk => ?_) (hq.meets m hm hg)
    rw [P.explaining, P.explaining, D.explain.1, D.explain.2]
    exact .fail hk

instance [hp : Moves S g g' b z d y p p'] : Moves S g g' b z d y (p <|> P.explaining q) (p' <|> P.explaining q') where
  meets m hm hg := by
    refine .orElse (hp.meets m hm hg) fun st st' _ _ hk => ?_
    rw [P.explaining, P.explaining, D.explain.1, D.explain.2]
    exact .fail hk

instance [hp : Moves S g g' b z d y p q] : Moves S g g' b z d y (P.rule p) (P.rule q) :=
  ⟨fun m hm hg => (hp.meets m hm hg).rule⟩

instance [hp : Moves S g g' b z d y p q] : Moves S g g' b z d y (P.committed p) (P.committed q) :=
  ⟨fun m hm hg => (hp.meets m hm hg).committed⟩

instance [hp : Moves S g g' b z d z p q] : Moves S g g' b z 0 z p.optional q.optional where
  meets m hm hg := (hp.meets m hm hg).optional (fun _ _ _ h => ⟨.some h.1, by omega, h.2.2⟩)
    ⟨.none, Nat.le_refl m, hm, rfl⟩

instance [hp : Moves S g g' b z d y p q] : Moves S g g' b z 0 z p.notAhead q.notAhead where
  meets m hm hg := (hp.meets m hm hg).notAhead ⟨rfl, Nat.le_refl m, hm, rfl⟩

section Repeated

instance [hp : Moves S g g' b z 1 z p q] : Moves S g g' b z 0 z p.many q.many where
  meets m hm hg := by
    have hstep (i : Nat) (hi' : m ≤ i ∧ z.Has D hi i ∧ D.left.height i = D.left.height m) : Meets D i
        (fun a a' j => Kin.alike a a' ∧ i < j ∧ m ≤ j ∧ z.Has D hi j ∧ D.left.height j = D.left.height m) p q :=
      (hp.meets i hi'.2.1 (hg.still hi'.1)).mono
        fun _ _ _ h => ⟨h.1, h.2.1, by omega, h.2.2.1, h.2.2.2.trans hi'.2.2⟩
    have hright : hi ≤ D.right.tokens.size := by have := S.right_lt; omega
    exact (Meets.many hstep (fun _ hi' => hi'.2.1.le) (Nat.le_of_lt S.left_lt) hright
      ⟨Nat.le_refl m, hm, rfl⟩).mono fun _ _ _ h => ⟨h.1, h.2.1, h.2.2.2⟩

/-- No rule is of a rank above all others. -/
theorem full (h : Moves S g g' b z d y p q) : Moves S g g' 13 z d y p q where
  meets m hm hg := h.meets m hm ⟨fun r _ => hg.here r r.rank_lt, hg.later⟩

instance [hp : Moves S g g' b z 1 y p q] [hy : Moves S g g' 13 y 1 y p q] :
    Moves S g g' b z 1 y (P.many1 p) (P.many1 q) := by
  unfold P.many1
  infer_instance

instance {s s' : P β} [hp : Moves S g g' b z 1 y p q] [hs : Moves S g g' 13 y 1 y (s >>= fun _ => p) (s' >>= fun _ => q)] :
    Moves S g g' b z 1 y (P.sepBy1 p s) (P.sepBy1 q s') := by
  unfold P.sepBy1
  infer_instance

end Repeated

section Tokens

/-- A token that joins a statement may be asked for everywhere. -/
theorem accept {f : Token → Option α} (hf : ∀ t u, t.lexeme = u.lexeme → Kin.alike (f t) (f u))
    (hends : ∀ t a, f t = some a → t.lexeme.ends = false) (hrise : ∀ t a, f t = some a → t.lexeme.rise = 0)
    (hjoins : ∀ t, t.lexeme.joins = false → f t = none) : Moves S g g' b z 1 .inside (P.accept f) (P.accept f) where
  meets m hm _ := by
    rcases Nat.eq_or_lt_of_le hm.le with rfl | hlt
    · exact S.refuse hjoins
    · refine (S.take hf hlt).mono fun a a' i h => ?_
      obtain ⟨haa, rfl, t, ht, hfa⟩ := h
      exact ⟨haa, Nat.le_refl _, S.succ_lt hlt ht (hends t a hfa),
        by rw [Env.height_succ ht, hrise t a hfa, Int.add_zero]⟩

instance (k : Keyword) [h : Same.Evident (Lexeme.joins (.word k)) true] :
    Moves S g g' b z 1 .inside (P.word k) (P.word k) := by
  refine accept (fun t u htu => ?_) (fun t a ha => ?_) (fun t a ha => ?_) fun t ht => if_neg fun hk => ?_
  · rw [htu]
    split
    · exact .some trivial
    · exact .none
  · rw [(Option.ite_none_right_eq_some.mp ha).1]
    rfl
  · rw [(Option.ite_none_right_eq_some.mp ha).1]
    rfl
  · rw [hk, h.eq] at ht
    cases ht

instance : Moves S g g' b z 1 .inside (P.symbol .at_) (P.symbol .at_) := by
  refine accept (fun t u htu => ?_) (fun t a ha => ?_) (fun t a ha => ?_) fun t ht => if_neg fun hk => ?_
  · rw [htu]
    split
    · exact .some trivial
    · exact .none
  · rw [(Option.ite_none_right_eq_some.mp ha).1]
    rfl
  · rw [(Option.ite_none_right_eq_some.mp ha).1]
    rfl
  · rw [hk] at ht
    cases ht

/-- Another statement stands on the same line. -/
instance : Moves S g g' b .inside 1 .inside (P.symbol .semi) (P.symbol .semi) where
  meets m hm _ := by
    have hsemi : ∀ t u : Token, t.lexeme = u.lexeme →
        Kin.alike (if t.lexeme = .symbol .semi then some (P.spanOf t) else none)
          (if u.lexeme = .symbol .semi then some (P.spanOf u) else none) := by
      intro t u htu
      rw [htu]
      split
      · exact .some trivial
      · exact .none
    refine (S.take hsemi hm).mono fun a a' i h => ?_
    obtain ⟨haa, rfl, t, ht, hfa⟩ := h
    have hlex := (Option.ite_none_right_eq_some.mp hfa).1
    exact ⟨haa, Nat.le_refl _, S.succ_lt hm ht (by rw [hlex]; rfl),
      by rw [Env.height_succ ht, hlex]; exact Int.add_zero _⟩

/-- The end of a line. -/
instance : Moves S g g' b .inside 1 .edge (P.lexeme .newline) (P.lexeme .newline) where
  meets m hm _ := by
    refine (S.take (Same.lexeme_alike .newline) hm).mono fun a a' i h => ?_
    obtain ⟨haa, rfl, t, ht, hfa⟩ := h
    have hlex := (Option.ite_none_right_eq_some.mp hfa).1
    refine ⟨haa, Nat.le_refl _, ⟨hm, fun k hk => ?_⟩, by rw [Env.height_succ ht, hlex]; exact Int.add_zero _⟩
    obtain rfl : k = m := by omega
    exact ⟨t, ht, by rw [hlex]; rfl⟩

instance : Moves S g g' b z 0 z P.start P.start where
  meets m hm _ st st' hst hst' hk := by
    have := S.left_lt
    have := S.right_lt
    have := hm.le
    obtain ⟨t, ht⟩ : ∃ t, D.left.tokens[st.mark]? = some t := ⟨_, Array.getElem?_eq_getElem (by omega)⟩
    obtain ⟨u, hu⟩ : ∃ u, D.right.tokens[st'.mark]? = some u := ⟨_, Array.getElem?_eq_getElem (by omega)⟩
    obtain ⟨s, hs, hmark, hmemo⟩ := Meets.token_eq ht
    obtain ⟨s', hs', hmark', -⟩ := Meets.token_eq hu
    change (P.bind _ _ D.left st).Meets D _ (P.bind _ _ D.right st')
    rw [P.bind, P.bind, hs, hs']
    have hmark : s.mark = m := hmark.trans hst
    exact .ok ⟨trivial, by omega, hmark ▸ hm, by rw [hmark]⟩ (by omega) (hmemo ▸ hk)

instance (a a' : Place) : Moves S g g' b z 0 z (P.spanFrom a) (P.spanFrom a') where
  meets m hm _ st st' hst hst' hk := .ok ⟨trivial, by omega, hst ▸ hm, by rw [hst]⟩ (by omega) hk

instance {p q : P (Span → α)} [hp : Moves S g g' b z 1 y p q] :
    Moves S g g' b z 1 y (P.spanned p) (P.spanned q) := by
  refine bind_zero inferInstance fun a a' _ => bind_one (d := 0) hp fun f f' hf => ?_
  have (s s' : Span) : Alike (f s) (f' s') := ⟨hf s s'⟩
  infer_instance

end Tokens

section Blocks

/-- What keeps its level does not leave a block. -/
theorem raise (h : Moves S g g' b .inside d .edge p q) : Moves S g g' b .raised d .raised p q where
  meets m hm hg := (h.meets m hm.1 hg).mono fun _ _ i h => by
    obtain ⟨haa, hd, hi', hheight⟩ := h
    refine ⟨haa, hd, ⟨Nat.lt_of_le_of_ne hi'.1 ?_, hheight ▸ hm.2⟩, hheight⟩
    rintro rfl
    exact absurd (hheight ▸ hm.2) (Int.lt_irrefl _)

/-- What stands on lines of its own, one level further in. -/
theorem suite {r r' : P β} {k k' : β → P α} (hr : Moves S g g' 13 .raised 1 .raised r r')
    (hk : ∀ a a', Kin.alike a a' → Moves S g g' 13 .edge 0 .edge (k a) (k' a')) :
    Moves S g g' b .inside 1 .edge
      (do P.lexeme .newline; P.lexeme .indent; let a ← r; P.lexeme .dedent; k a)
      (do P.lexeme .newline; P.lexeme .indent; let a ← r'; P.lexeme .dedent; k' a) where
  meets m hm hg := by
    have hnewline : Moves S g g' b .inside 1 .edge (P.lexeme .newline) (P.lexeme .newline) := inferInstance
    refine (hnewline.meets m hm hg).bind fun _ _ i h => ?_
    obtain ⟨-, hmi, hedge, hheight⟩ := h
    refine (S.indent hedge).bind fun _ _ j hj => ?_
    obtain ⟨rfl, hraised, hup⟩ := hj
    refine (hr.meets _ hraised (hg.behind 13 (by omega))).bind fun a a' l hl => ?_
    obtain ⟨haa, hjl, hraised, hlevel⟩ := hl
    refine (S.dedent hraised).bind fun _ _ n hn => ?_
    obtain ⟨rfl, hedge, hdown⟩ := hn
    exact ((hk a a' haa).meets _ hedge (hg.behind 13 (by omega))).mono
      fun _ _ _ h => ⟨h.1, by omega, h.2.2.1, by omega⟩

end Blocks

end Moves

namespace P

open Moves

set_option synthInstance.maxSize 2000

variable {D : Duo} {hi : Nat} {S : Stage D hi} {g g' : Grammar} {b : Nat} (n : Nat)

instance : Moves S g g' (n + 12) .inside 1 .edge (g .block) (g' .block) :=
  ⟨fun _ hm hg => hg.here .block (Nat.lt_add_left n (by decide)) _ (.block S hm)⟩

instance : Moves S g g' (n + 12) .edge 1 .edge (g .elifClause) (g' .elifClause) :=
  ⟨fun _ hm hg => hg.here .elifClause (Nat.lt_add_left n (by decide)) _ (.elifClause S hm)⟩

instance : Moves S g g' (n + 13) .raised 1 .raised (g .statements) (g' .statements) :=
  ⟨fun _ hm hg => hg.here .statements (Nat.lt_add_left n (by decide)) _ (.statements S hm)⟩

instance : Same D g g' (n + 11) 1 (g .simpleStatement) (g' .simpleStatement) := same_call n .simpleStatement rfl rfl

instance : Moves S g g' (n + 11) .inside 1 .edge (simpleStatements g) (simpleStatements g') := by
  unfold simpleStatements
  infer_instance

instance : Moves S g g' (n + 11) .inside 1 .edge (block g) (block g') := by
  unfold block
  refine .orElse (suite inferInstance fun a a' h => ?_) inferInstance
  have := Alike.mk h
  infer_instance

/-! ## Compound statements -/

instance : Moves S g g' b .edge 1 .edge (elseBlock g) (elseBlock g') := by
  unfold elseBlock
  infer_instance

instance : Moves S g g' b .inside 1 .edge (ifStatement g) (ifStatement g') := by
  unfold ifStatement conditionClause
  infer_instance

instance : Moves S g g' b .edge 1 .edge (elifClause g) (elifClause g') := by
  unfold elifClause conditionClause
  infer_instance

instance : Moves S g g' b .inside 1 .edge (whileStatement g) (whileStatement g') := by
  unfold whileStatement
  infer_instance

instance : Moves S g g' b .inside 1 .edge (forStatement g) (forStatement g') := by
  unfold forStatement
  simp only [Bool.false_eq_true, if_false, if_true]
  infer_instance

instance : Same D g g' (n + 9) 1 (withItem g) (withItem g') := by
  unfold withItem
  infer_instance

instance : Moves S g g' b .inside 1 .edge (withStatement g) (withStatement g') := by
  unfold withStatement
  simp only [Bool.false_eq_true, if_false, if_true]
  infer_instance

instance : Moves S g g' b .edge 1 .edge (exceptBlock g) (exceptBlock g') := by
  unfold exceptBlock
  infer_instance

instance : Moves S g g' b .edge 1 .edge (exceptStarBlock g) (exceptStarBlock g') := by
  unfold exceptStarBlock
  infer_instance

instance : Moves S g g' b .edge 1 .edge (finallyBlock g) (finallyBlock g') := by
  unfold finallyBlock
  infer_instance

instance : Moves S g g' b .inside 1 .edge (tryStatement g) (tryStatement g') := by
  unfold tryStatement
  dsimp only
  infer_instance

instance : Moves S g g' b .inside 1 .edge (decorators g) (decorators g') := by
  have (z : Zone) : Moves S g g' b z 1 .edge
      (do
        let _ ← symbol .at_
        let e ← g .namedExpression
        lexeme .newline
        return e : P Expr)
      (do
        let _ ← symbol .at_
        let e ← g' .namedExpression
        lexeme .newline
        return e) := inferInstance
  unfold decorators
  infer_instance

section Definitions

variable {z : Zone} {ds ds' : List Expr} [Alike ds ds']

instance : Moves S g g' b z 1 .edge (classStatement g ds) (classStatement g' ds') := by
  have (x : Akin (Option (Option Arguments))) : Alike
      (match x.left with
        | some (some a) => (a.positional, a.keywords)
        | _ => ([], []))
      (match x.right with
        | some (some a) => (a.positional, a.keywords)
        | _ => ([], [])) := by
    obtain ⟨o, o', ho⟩ := x
    cases ho with
    | none => infer_instance
    | some ha =>
      cases ha with
      | none => infer_instance
      | some h =>
        have := Alike.mk h
        infer_instance
  unfold classStatement
  dsimp only
  infer_instance

instance : Moves S g g' b z 1 .edge (functionStatement g ds) (functionStatement g' ds') := by
  unfold functionStatement
  dsimp only
  simp only [Bool.false_eq_true, if_false, if_true]
  infer_instance

end Definitions

instance {definition definition' : List Expr → P Stmt}
    [h : ∀ x : Akin (List Expr), Moves S g g' b .inside 1 .edge (definition x.left) (definition' x.right)]
    [∀ x : Akin (List Expr), Moves S g g' 13 .edge 1 .edge (definition x.left) (definition' x.right)] :
    Moves S g g' b .inside 1 .edge (decorated g definition) (decorated g' definition') := by
  have := h ⟨[], [], .nil⟩
  unfold decorated
  infer_instance

instance : Same D g g' (n + 10) 1 (subject g) (subject g') := by
  unfold subject
  infer_instance

instance : Same D g g' b 1 (guardClause g) (guardClause g') := by
  unfold guardClause
  infer_instance

instance : Moves S g g' b .inside 1 .edge (caseBlock g) (caseBlock g') := by
  unfold caseBlock
  infer_instance

instance : Moves S g g' b .inside 1 .edge (matchStatement g) (matchStatement g') := by
  have hcase : Moves S g g' 13 .raised 1 .raised (caseBlock g) (caseBlock g') := raise inferInstance
  have (x : Akin Expr) : Moves S g g' 13 .inside 1 .edge
      (do
        lexeme .newline
        lexeme .indent
        let cases ← many1 (caseBlock g)
        lexeme .dedent
        return fun sp => .matchBlock sp x.left cases : P (Span → Stmt))
      (do
        lexeme .newline
        lexeme .indent
        let cases ← many1 (caseBlock g')
        lexeme .dedent
        return fun sp => .matchBlock sp x.right cases) := by
    refine suite inferInstance fun a a' h => ?_
    have := Alike.mk h
    infer_instance
  unfold matchStatement
  infer_instance

instance : Moves S g g' b .inside 1 .edge (compoundStatement g) (compoundStatement g') := by
  unfold compoundStatement
  refine ⟨fun m hm hg => (Meets.token (S.level m hm)).bind fun t u i h => ?_⟩
  obtain ⟨htu, rfl, -⟩ := h
  dsimp only
  rw [htu]
  refine (Moves.orElse (S := S) (b := b) (z := .inside) (d := 1) (y := .edge) ?_ inferInstance).meets i hm hg
  split
  case h_10 => exact ⟨fun _ _ _ => .fail⟩
  all_goals infer_instance

instance : Moves S g g' (n + 12) .raised 1 .raised (statements g) (statements g') := by
  have (n : Nat) : Moves S g g' (n + 11) .raised 1 .raised
      ((do return [← rule (compoundStatement g)]) <|> rule (simpleStatements g))
      ((do return [← rule (compoundStatement g')]) <|> rule (simpleStatements g')) := raise inferInstance
  unfold statements
  infer_instance

end P

end Evalbox.Lang
