import Evalbox.Lang.Parse

/-!
# What a parse that succeeds has read

A source is read up to the token that ends it (`exists_finish_of_parse`), and it has no statements only if that is its
first token (`first_of_parse_nil`).
-/

namespace Evalbox.Lang

open Parse

namespace P

variable {α β : Type} {p : P α} {φ : α → Prop} {ψ : β → Prop}

theorem bind_ok {f : α → P β} {env : Env} {st st' : State} {b : β} (h : (p >>= f) env st = .ok b st') :
    ∃ a st₁, p env st = .ok a st₁ ∧ f a env st₁ = .ok b st' := by
  have h : P.bind p f env st = .ok b st' := h
  rw [P.bind] at h
  split at h
  case h_1 a st₁ hp => exact ⟨a, st₁, hp, h⟩
  all_goals cases h

theorem token_ok {env : Env} {st st' : State} {t : Token} (h : token env st = .ok t st') :
    env.tokens[st.mark]? = some t ∧ st'.mark = st.mark := by
  rw [token] at h
  split at h
  case h_1 u hu =>
    split at h
    all_goals
      obtain ⟨rfl, rfl⟩ := Reply.ok.inj h
      exact ⟨hu, rfl⟩
  case h_2 =>
    split at h
    all_goals cases h

theorem accept_ok {f : Token → Option α} {env : Env} {st st' : State} {a : α} (h : accept f env st = .ok a st') :
    ∃ t, env.tokens[st.mark]? = some t ∧ f t = some a := by
  rw [accept] at h
  split at h
  case h_1 t st₁ ht =>
    refine ⟨t, (token_ok ht).1, ?_⟩
    split at h
    case h_1 b hb => exact hb.trans (congrArg some (Reply.ok.inj h).1)
    case h_2 => cases h
  all_goals cases h

theorem lexeme_ok {l : Lexeme} {env : Env} {st st' : State} {u : Unit} (h : lexeme l env st = .ok u st') :
    ∃ t, env.tokens[st.mark]? = some t ∧ t.lexeme = l := by
  obtain ⟨t, ht, hl⟩ := accept_ok h
  exact ⟨t, ht, (Option.ite_none_right_eq_some.mp hl).1⟩

theorem word_ok {k : Keyword} {env : Env} {st st' : State} {sp : Span} (h : word k env st = .ok sp st') :
    ∃ t, env.tokens[st.mark]? = some t ∧ t.lexeme = .word k := by
  obtain ⟨t, ht, hl⟩ := accept_ok h
  exact ⟨t, ht, (Option.ite_none_right_eq_some.mp hl).1⟩

theorem optional_ok {env : Env} {st st' : State} {a : Option α} (h : p.optional env st = .ok a st') :
    a = none ∧ st'.mark = st.mark ∨ ∃ b, a = some b ∧ p env st = .ok b st' := by
  rw [optional] at h
  split at h
  case h_1 b st₁ hb =>
    obtain ⟨rfl, rfl⟩ := Reply.ok.inj h
    exact .inr ⟨b, rfl, hb⟩
  case h_4 => cases h
  all_goals
    obtain ⟨rfl, rfl⟩ := Reply.ok.inj h
    exact .inl ⟨rfl, rfl⟩

/-- Every answer of a parser has a property. -/
def Answers (env : Env) (p : P α) (φ : α → Prop) : Prop := ∀ st a st', p env st = .ok a st' → φ a

namespace Answers

variable {env : Env}

theorem trivial (p : P α) : Answers env p fun _ => True := fun _ _ _ _ => .intro

theorem mono {χ : α → Prop} (hp : Answers env p φ) (h : ∀ a, φ a → χ a) : Answers env p χ :=
  fun st a st' heq => h a (hp st a st' heq)

theorem fail : Answers env (P.fail : P α) φ := by
  intro st a st' h
  cases h

theorem pure {a : α} (h : φ a) : Answers env (Pure.pure a) φ := by
  intro st a' st' heq
  exact (Reply.ok.inj heq).1 ▸ h

theorem bind {f : α → P β} (hp : Answers env p φ) (hf : ∀ a, φ a → Answers env (f a) ψ) :
    Answers env (p >>= f) ψ := by
  intro st b st' h
  obtain ⟨a, st₁, ha, hb⟩ := bind_ok h
  exact hf a (hp _ _ _ ha) _ _ _ hb

theorem then_ {f : α → P β} (hf : ∀ a, Answers env (f a) ψ) : Answers env (p >>= f) ψ :=
  (trivial p).bind fun a _ => hf a

theorem orElse {q : P α} (hp : Answers env p φ) (hq : Answers env q φ) : Answers env (p <|> q) φ := by
  intro st a st' h
  have h : P.orElse p (fun _ => q) env st = .ok a st' := h
  rw [P.orElse] at h
  split at h
  case h_1 => exact hq _ _ _ h
  case h_2 => cases h
  case h_3 => exact hp _ _ _ h

theorem rule (hp : Answers env p φ) : Answers env (P.rule p) φ := by
  intro st a st' h
  rw [P.rule] at h
  split at h
  case h_3 => exact hp _ _ _ h
  all_goals cases h

theorem committed (hp : Answers env p φ) : Answers env (P.committed p) φ := by
  intro st a st' h
  rw [P.committed] at h
  split at h
  case h_1 => cases h
  case h_2 => exact hp _ _ _ h

/-- The rules that explain errors answer nothing. -/
theorem explaining (henv : env.explain = false) : Answers env (P.explaining p) φ := by
  intro st a st' h
  rw [P.explaining, henv] at h
  cases h

theorem many (hp : Answers env p φ) : Answers env p.many fun as => ∀ a ∈ as, φ a := by
  have hupTo (n : Nat) : Answers env (manyUpTo p n) fun as => ∀ a ∈ as, φ a := by
    induction n with
    | zero => exact .pure fun _ h => nomatch h
    | succ n ih =>
      have hopt : Answers env p.optional fun o => ∀ a, o = some a → φ a := by
        intro st o st' h a ho
        rcases optional_ok h with ⟨hnone, -⟩ | ⟨b, hb, hp'⟩
        · cases hnone.symm.trans ho
        · exact hp _ _ _ (Option.some.inj (hb.symm.trans ho) ▸ hp')
      refine hopt.bind fun o ho => ?_
      cases o with
      | none => exact .pure fun _ h => nomatch h
      | some a => exact ih.bind fun as has => .pure (List.forall_mem_cons.mpr ⟨ho a rfl, has⟩)
  intro st as st' h
  exact hupTo _ _ _ _ h

theorem many1 (hp : Answers env p φ) : Answers env (P.many1 p) fun as => ∀ a ∈ as, φ a :=
  hp.bind fun _ ha => hp.many.bind fun _ has => .pure (List.forall_mem_cons.mpr ⟨ha, has⟩)

theorem sepBy1 {sep : P β} (hp : Answers env p φ) : Answers env (P.sepBy1 p sep) fun as => ∀ a ∈ as, φ a := by
  have hmore : Answers env (do let _ ← sep; p : P α).many fun as => ∀ a ∈ as, φ a := (then_ fun _ => hp).many
  exact hp.bind fun _ ha => hmore.bind fun _ has => .pure (List.forall_mem_cons.mpr ⟨ha, has⟩)

end Answers

variable {g : Grammar} {env : Env}

theorem simpleStatements_ne_nil : Answers env (simpleStatements g) (· ≠ []) := by
  refine .orElse (.then_ fun s => .then_ fun _ => .then_ fun _ => .pure (List.cons_ne_nil _ _)) ?_
  have hsep : Answers env (sepBy1 (g .simpleStatement) (symbol .semi)) (· ≠ []) :=
    .then_ fun s => .then_ fun ss => .pure (List.cons_ne_nil s ss)
  exact hsep.bind fun ss hss => .then_ fun _ => .then_ fun _ => .pure hss

theorem statements_ne_nil : Answers env (statements g) (· ≠ []) := by
  have hgroup : Answers env ((do return [← rule (compoundStatement g)]) <|> rule (simpleStatements g)) (· ≠ []) :=
    .orElse (.then_ fun s => .pure (List.cons_ne_nil s [])) (.rule simpleStatements_ne_nil)
  have hgroups : Answers env (many1 ((do return [← rule (compoundStatement g)]) <|> rule (simpleStatements g)))
      fun groups => groups.flatten ≠ [] :=
    hgroup.bind fun group hg => .then_ fun groups => .pure (List.append_ne_nil_of_left_ne_nil hg _)
  exact hgroups.bind fun groups hg => .pure hg

/-- A file is read up to the end of its tokens. -/
theorem file_finish {env : Env} {st st' : State} {body : List Stmt} (h : file g env st = .ok body st') :
    ∃ t ∈ env.tokens, t.lexeme = .finish := by
  obtain ⟨ss, st₁, -, h⟩ := bind_ok h
  obtain ⟨u, st₂, h, -⟩ := bind_ok h
  obtain ⟨t, ht, hl⟩ := lexeme_ok h
  exact ⟨t, Array.mem_of_getElem? ht, hl⟩

end P

/-- Only the first of the two runs can succeed. -/
theorem run_ok {α : Type} (env : Env) (stream : TokenStream) (p : P α) (a : α) : (run env stream p).1 = .ok a ↔
    ∃ st, p env (.initial stream.tokens.size 0 []) = .ok a st := by
  rw [run]
  dsimp only
  cases p env (.initial stream.tokens.size 0 []) with
  | ok b st => simp
  | stop r st => simp
  | fail st | cut st =>
    dsimp only
    cases p { env with explain := true } (.initial stream.tokens.size st.fill st.warnings) <;> simp

/-- The rules over the tokens of a text. -/
def grammarOf (text : List Char) (bdfl : Bool) : Grammar :=
  grammar (fieldParser bdfl text.length) (depth (TokenStream.ofText text).tokens.size)

theorem parse_ok {text : List Char} {bdfl : Bool} {body : List Stmt} : (parse text bdfl).1 = .ok body ↔
    text.contains '\x00' = false ∧ ∃ st, P.file (grammarOf text bdfl) (prepare text ⟨0, 0, 0⟩ false bdfl).1
      (.initial (TokenStream.ofText text).tokens.size 0 []) = .ok body st := by
  rw [parse]
  cases text.contains '\x00' with
  | true => simp
  | false =>
    have hrun := run_ok (prepare text ⟨0, 0, 0⟩ false bdfl).1 (prepare text ⟨0, 0, 0⟩ false bdfl).2
      (P.file (grammarOf text bdfl)) body
    refine Iff.trans ?_ (hrun.trans ⟨fun h => ⟨rfl, h⟩, fun h => h.2⟩)
    have htokens : (prepare text ⟨0, 0, 0⟩ false bdfl).2.tokens = (TokenStream.ofText text).tokens := rfl
    rw [if_neg Bool.false_ne_true]
    dsimp only
    rw [htokens, ← grammarOf]
    rcases run (prepare text ⟨0, 0, 0⟩ false bdfl).1 (prepare text ⟨0, 0, 0⟩ false bdfl).2
      (P.file (grammarOf text bdfl)) with ⟨_ | _, ws⟩ <;> simp

/-- A text without an end of its tokens is no program. -/
theorem exists_finish_of_parse {text : List Char} {bdfl : Bool} {body : List Stmt}
    (h : (parse text bdfl).1 = .ok body) : ∃ t ∈ (TokenStream.ofText text).tokens, t.lexeme = .finish := by
  obtain ⟨-, st, h⟩ := parse_ok.mp h
  exact P.file_finish h

/-- A program without statements has no tokens. -/
theorem first_of_parse_nil {text : List Char} {bdfl : Bool} (h : (parse text bdfl).1 = .ok []) :
    ∃ t, (TokenStream.ofText text).tokens[0]? = some t ∧ t.lexeme = .finish := by
  obtain ⟨-, st, h⟩ := parse_ok.mp h
  obtain ⟨ss, st₁, hss, h⟩ := P.bind_ok h
  obtain ⟨u, st₂, hfin, h⟩ := P.bind_ok h
  have hnil : ss.getD [] = [] := (Reply.ok.inj h).1
  rcases P.optional_ok hss with ⟨-, hmark⟩ | ⟨b, rfl, hb⟩
  · have hfirst := P.lexeme_ok hfin
    rw [hmark] at hfirst
    exact hfirst
  · obtain ⟨n, hn⟩ : ∃ n, depth (TokenStream.ofText text).tokens.size = n + 1 := ⟨_, rfl⟩
    rw [grammarOf, hn] at hb
    have hrule : grammar (fieldParser bdfl text.length) (n + 1) .statements =
        P.rule (P.statements (grammar (fieldParser bdfl text.length) n)) := rfl
    exact absurd hnil (P.statements_ne_nil.rule _ _ _ (hrule ▸ hb))

end Evalbox.Lang
