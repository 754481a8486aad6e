import Evalbox.Proofs.Lang.Statements
import Mathlib.Logic.Basic

/-!
# What a parser remembers

A block that was parsed before is not parsed again, but taken from what is remembered. So a property of statements
holds of all blocks only if it holds of everything remembered; `Keeps` says that a parser adds nothing else, and
something of its answers. It follows the grammar: there is an instance for every way to build a parser.
-/

namespace Evalbox.Lang

open Parse

section Definitions

variable (φ : Stmt → Prop)

/-- The statements that a rule answers have a property. -/
def Parse.Rule.Fits : (r : Rule) → r.Out → Prop
  | .statements, ss | .block, ss => ∀ s ∈ ss, φ s
  | .simpleStatement, s | .elifClause, s => φ s
  | _, _ => True

/-- What is remembered fits its rule. -/
def Parse.State.Sound (st : State) : Prop :=
  ∀ es ∈ st.memo, ∀ e ∈ es, ∀ a, e.answer = some a → e.rule.Fits φ a

/-- What is remembered in the end fits its rule, and the answer has a property. -/
def Parse.Reply.Sound {α : Type} (ψ : α → Prop) : Reply α → Prop
  | .ok a st => st.Sound φ ∧ ψ a
  | .fail st | .cut st => st.Sound φ
  | .stop _ _ => True

/-- A parser that remembers nothing unfit, and whose answers have a property. -/
class Keeps (env : Env) {α : Type} (p : P α) (ψ : α → Prop) : Prop where
  keeps : ∀ st, st.Sound φ → (p env st).Sound φ ψ

/-- Nothing is asked of the answers. -/
abbrev Tame (env : Env) {α : Type} (p : P α) : Prop := Keeps φ env p fun _ => True

end Definitions

namespace Keeps

variable {φ : Stmt → Prop} {env : Env} {α β : Type} {p q : P α} {ψ χ : α → Prop} {ξ : β → Prop}

theorem mono (h : Keeps φ env p ψ) (hψ : ∀ a, ψ a → χ a) : Keeps φ env p χ where
  keeps st hst := by
    have hp := h.keeps st hst
    revert hp
    cases p env st with
    | ok a st' => exact fun hp => ⟨hp.1, hψ a hp.2⟩
    | _ => exact id

theorem tame (h : Keeps φ env p ψ) : Tame φ env p := h.mono fun _ _ => trivial

/-- What is known of the answers in any state. -/
theorem of_answers (hp : Tame φ env p) (ha : P.Answers env p ψ) : Keeps φ env p ψ where
  keeps st hst := by
    have hp := hp.keeps st hst
    have ha := ha st
    revert hp ha
    cases p env st with
    | ok a st' => exact fun hp ha => ⟨hp.1, ha a st' rfl⟩
    | _ => exact fun hp _ => hp

theorem pure {a : α} (h : ψ a) : Keeps φ env (Pure.pure a : P α) ψ := ⟨fun _ hst => ⟨hst, h⟩⟩

theorem bind {f : α → P β} (hp : Keeps φ env p ψ) (hf : ∀ a, ψ a → Keeps φ env (f a) ξ) :
    Keeps φ env (p >>= f) ξ where
  keeps st hst := by
    have hp := hp.keeps st hst
    change (P.bind p f env st).Sound φ ξ
    rw [P.bind]
    revert hp
    cases p env st with
    | ok a st' => exact fun hp => (hf a hp.2).keeps st' hp.1
    | _ => exact id

/-- Nothing comes behind a parser without answers. -/
theorem refuse [hp : Keeps φ env p fun _ => False] {f : α → P β} : Keeps φ env (p >>= f) ξ :=
  hp.bind fun _ h => h.elim

/-! ## Ways to build a parser -/

/-- Where nothing is asked of what comes first. -/
theorem then_ [hp : Tame φ env p] {f : α → P β} (hf : ∀ a, Keeps φ env (f a) ξ) : Keeps φ env (p >>= f) ξ :=
  hp.bind fun a _ => hf a

instance [Tame φ env p] {f : α → P β} [hf : ∀ a, Keeps φ env (f a) ξ] : Keeps φ env (p >>= f) ξ := then_ hf

-- for an answer that is not used: the instance above counts such a step twice when its size is limited
instance [Tame φ env p] {q : P β} [hq : Keeps φ env q ξ] : Keeps φ env (p >>= fun _ => q) ξ := then_ fun _ => hq

instance (a : α) : Tame φ env (Pure.pure a : P α) := .pure trivial

instance : Keeps φ env (P.fail : P α) ψ := ⟨fun _ hst => hst⟩

instance : Keeps φ env (P.cut : P α) ψ := ⟨fun _ hst => hst⟩

theorem orElse (hp : Keeps φ env p ψ) (hq : Keeps φ env q ψ) : Keeps φ env (p <|> q) ψ where
  keeps st hst := by
    have hp := hp.keeps st hst
    change (P.orElse p (fun _ => q) env st).Sound φ ψ
    rw [P.orElse]
    revert hp
    cases p env st with
    | fail st' => exact fun hp => hq.keeps { st' with mark := st.mark } hp
    | _ => exact id

instance [hp : Keeps φ env p ψ] [hq : Keeps φ env q ψ] : Keeps φ env (p <|> q) ψ := hp.orElse hq

instance (c : Prop) [Decidable c] [hp : Keeps φ env p ψ] [hq : Keeps φ env q ψ] :
    Keeps φ env (if c then p else q) ψ := by
  split
  · exact hp
  · exact hq

theorem rule (hp : Keeps φ env p ψ) : Keeps φ env (P.rule p) ψ where
  keeps st hst := by
    have hp := hp.keeps st hst
    rw [P.rule]
    revert hp
    cases p env st <;> exact id

theorem committed (hp : Keeps φ env p ψ) : Keeps φ env (P.committed p) ψ where
  keeps st hst := by
    have hp := hp.keeps st hst
    rw [P.committed]
    revert hp
    cases p env st <;> exact id

instance [hp : Keeps φ env p ψ] : Keeps φ env (P.rule p) ψ := hp.rule

instance [hp : Keeps φ env p ψ] : Keeps φ env (P.committed p) ψ := hp.committed

theorem optional (hp : Keeps φ env p ψ) : Keeps φ env p.optional fun o => ∀ a, o = some a → ψ a where
  keeps st hst := by
    have hp := hp.keeps st hst
    have hnone : ∀ a, (none : Option α) = some a → ψ a := nofun
    rw [P.optional]
    revert hp
    cases p env st with
    | ok a st' => exact fun hp => ⟨hp.1, fun _ ha => Option.some.inj ha ▸ hp.2⟩
    | fail st' | cut st' => exact fun hp => ⟨hp, hnone⟩
    | stop => exact id

instance [hp : Tame φ env p] : Tame φ env p.optional := hp.optional.tame

instance [hp : Tame φ env p] : Tame φ env p.ahead where
  keeps st hst := by
    have hp := hp.keeps st hst
    rw [P.ahead]
    revert hp
    cases p env st <;> exact id

instance [hp : Tame φ env p] : Tame φ env p.notAhead where
  keeps st hst := by
    have hp := hp.keeps st hst
    rw [P.notAhead]
    revert hp
    cases p env st with
    | ok a st' => exact fun hp => hp.1
    | fail st' | cut st' => exact fun hp => ⟨hp, trivial⟩
    | stop => exact id

theorem many (hp : Keeps φ env p ψ) : Keeps φ env p.many fun as => ∀ a ∈ as, ψ a := by
  have hupTo : ∀ n, Keeps φ env (P.manyUpTo p n) fun as => ∀ a ∈ as, ψ a := by
    intro n
    induction n with
    | zero => exact .pure fun _ h => nomatch h
    | succ n ih =>
      refine hp.optional.bind fun o ho => ?_
      cases o with
      | none => exact .pure fun _ h => nomatch h
      | some a => exact ih.bind fun as has => .pure (List.forall_mem_cons.mpr ⟨ho a rfl, has⟩)
  exact ⟨fun st hst => (hupTo _).keeps st hst⟩

theorem many1 (hp : Keeps φ env p ψ) : Keeps φ env (P.many1 p) fun as => ∀ a ∈ as, ψ a :=
  hp.bind fun _ ha => hp.many.bind fun _ has => .pure (List.forall_mem_cons.mpr ⟨ha, has⟩)

theorem sepBy1 {sep : P β} (hp : Keeps φ env p ψ) (hsep : Tame φ env sep) :
    Keeps φ env (P.sepBy1 p sep) fun as => ∀ a ∈ as, ψ a :=
  hp.bind fun _ ha => (hsep.bind fun _ _ => hp).many.bind fun _ has =>
    .pure (List.forall_mem_cons.mpr ⟨ha, has⟩)

instance [hp : Tame φ env p] : Tame φ env p.many := hp.many.tame

instance [hp : Tame φ env p] : Tame φ env (P.many1 p) := hp.many1.tame

instance {sep : P β} [hp : Tame φ env p] [hsep : Tame φ env sep] : Tame φ env (P.sepBy1 p sep) :=
  (hp.sepBy1 hsep).tame

instance {step : α → P α} [hs : ∀ a, Tame φ env (step a)] (a : α) : Tame φ env (P.foldFrom step a) := by
  have hupTo : ∀ n a, Tame φ env (P.foldUpTo step n a) := by
    intro n
    induction n with
    | zero => exact fun a => .pure trivial
    | succ n ih =>
      refine fun a => (hs a).optional.bind fun o _ => ?_
      cases o with
      | none => exact .pure trivial
      | some b => exact ih b
  exact ⟨fun st hst => (hupTo _ a).keeps st hst⟩

instance : Tame φ env P.env := ⟨fun _ hst => ⟨hst, trivial⟩⟩

instance (kind : WarningKind) (text : String) (line : Nat) : Tame φ env (P.warn kind text line) :=
  ⟨fun _ hst => ⟨hst, trivial⟩⟩

/-! ## Tokens -/

instance : Tame φ env P.token where
  keeps st hst := by
    rw [P.token]
    split
    · split <;> exact ⟨hst, trivial⟩
    · split
      · exact trivial
      · exact hst

instance : Tame φ env P.advance := ⟨fun _ hst => ⟨hst, trivial⟩⟩

instance (f : Token → Option α) : Tame φ env (P.accept f) where
  keeps st hst := by
    have hp := (inferInstance : Tame φ env P.token).keeps st hst
    rw [P.accept]
    revert hp
    cases P.token env st with
    | ok t st' =>
      intro hp
      dsimp only
      split
      · exact ⟨hp.1, trivial⟩
      · exact hp.1
    | _ => exact id

instance (s : Sym) : Tame φ env (P.symbol s) := inferInstanceAs (Tame φ env (P.accept _))

instance (k : Keyword) : Tame φ env (P.word k) := inferInstanceAs (Tame φ env (P.accept _))

instance (l : Lexeme) : Tame φ env (P.lexeme l) := inferInstanceAs (Tame φ env (P.accept _))

instance : Tame φ env P.name := inferInstanceAs (Tame φ env (P.accept _))

instance (w : String) : Tame φ env (P.softWord w) := inferInstanceAs (Tame φ env (P.accept _))

instance : Tame φ env P.layout := inferInstanceAs (Tame φ env (P.accept _))

instance : Tame φ env P.start := inferInstanceAs (Tame φ env (P.token >>= fun t => Pure.pure (P.spanOf t).start))

instance (a : Place) : Tame φ env (P.spanFrom a) := ⟨fun _ hst => ⟨hst, trivial⟩⟩

/-! ## Rejections -/

instance (kind : RejectionKind) (text : String) (line byte endLine : Nat) (endByte : Int) :
    Keeps φ env (P.rejectAt kind text line byte endLine endByte : P α) ψ := ⟨fun _ _ => trivial⟩

instance (kind : RejectionKind) (text : String) : Keeps φ env (P.rejectLastAs kind text : P α) ψ where
  keeps st _ := by
    rw [P.rejectLastAs]
    split
    · exact trivial
    · split <;> exact trivial

instance (text : String) : Keeps φ env (P.rejectLast text : P α) ψ :=
  inferInstanceAs (Keeps φ env (P.rejectLastAs _ _) ψ)

instance (a b : Span) (text : String) : Keeps φ env (P.rejectRange a b text : P α) ψ :=
  inferInstanceAs (Keeps φ env (P.rejectAt _ _ _ _ _ _) ψ)

instance (a : Span) (text : String) : Keeps φ env (P.rejectSpan a text : P α) ψ :=
  inferInstanceAs (Keeps φ env (P.rejectRange _ _ _) ψ)

instance (a : Span) (text : String) : Keeps φ env (P.rejectFrom a text : P α) ψ where
  keeps st _ := by
    rw [P.rejectFrom]
    split <;> exact trivial

instance (s : Sym) (spelling : String) : Tame φ env (P.forced s spelling) := by
  refine then_ fun t => ?_
  split
  · infer_instance
  · split <;> infer_instance

/-- The rules that explain errors are not tried. -/
instance [henv : Fact (env.explain = false)] : Keeps φ env (P.explaining p) ψ where
  keeps st hst := by
    rw [P.explaining, henv.out]
    exact hst

/-! ## Nodes and memory -/

theorem spanned {q : P (Span → α)} (hq : Keeps φ env q fun f => ∀ sp, ψ (f sp)) : Keeps φ env (P.spanned q) ψ :=
  then_ fun _ => hq.bind fun _ hf => then_ fun sp => .pure (hf sp)

instance {q : P (Span → α)} [hq : Tame φ env q] : Tame φ env (P.spanned q) :=
  spanned (hq.mono fun _ _ _ => trivial)

theorem answerOf_mem {r : Rule} {es : List Entry} {o : Option r.Out} {m : Nat} (h : P.answerOf r es = some (o, m)) :
    ⟨r, o, m⟩ ∈ es := by
  induction es with
  | nil => cases h
  | cons e es ih =>
    rw [P.answerOf] at h
    split at h
    · rename_i he
      obtain ⟨rule, answer, mark⟩ := e
      subst he
      obtain ⟨rfl, rfl⟩ := Prod.mk.inj (Option.some.inj h)
      exact List.mem_cons_self
    · exact List.mem_cons_of_mem e (ih h)

theorem stored {r : Rule} {st : State} {mark behind : Nat} {answer : Option r.Out} (hst : st.Sound φ)
    (hanswer : ∀ a, answer = some a → r.Fits φ a) :
    State.Sound φ { st with memo := st.memo.modify mark fun es => ⟨r, answer, behind⟩ :: es } := by
  intro es hes e he
  obtain ⟨i, hi, rfl⟩ := Array.getElem_of_mem hes
  rw [Array.size_modify] at hi
  have hold : ∀ e ∈ st.memo[i], ∀ a, e.answer = some a → e.rule.Fits φ a := hst _ (Array.getElem_mem hi)
  rw [Array.getElem_modify] at he
  split at he
  · rcases List.mem_cons.mp he with rfl | he
    · exact hanswer
    · exact hold e he
  · exact hold e he

theorem remembered {r : Rule} {p : P r.Out} (hp : Keeps φ env p (r.Fits φ)) :
    Keeps φ env (P.remembered r p) (r.Fits φ) where
  keeps st hst := by
    have hrule := hp.rule.keeps st hst
    rw [P.remembered]
    split
    · rename_i a m hrecall
      have he := answerOf_mem hrecall
      rw [Array.getD_eq_getD_getElem?] at he
      cases hes : st.memo[st.mark]? with
      | none =>
        rw [hes] at he
        cases he
      | some es =>
        rw [hes] at he
        exact ⟨hst, hst es (Array.mem_of_getElem? hes) _ he a rfl⟩
    · exact hst
    · revert hrule
      cases P.rule p env st with
      | ok a st' => exact fun h => ⟨stored h.1 fun b hb => Option.some.inj hb ▸ h.2, h.2⟩
      | fail st' | cut st' => exact fun h => stored h nofun
      | stop => exact id

end Keeps

end Evalbox.Lang
