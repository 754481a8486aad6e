import Evalbox.Proofs.Lang.Expressions

/-!
# The statements of a program

What import statements have, and every other statement that has it in its blocks, holds of all statements of a program
(`forall_of_parse`). A property is followed through the grammar once, block by block.
-/

namespace Evalbox.Lang

open Parse

def Handler.body : Handler → List Stmt
  | .mk _ _ _ b => b

def MatchCase.body : MatchCase → List Stmt
  | .mk _ _ b => b

/-- The statements of the blocks of a statement. -/
def Stmt.nested : Stmt → List Stmt
  | .ite _ _ b o | .whileLoop _ _ b o | .forLoop _ _ _ _ b o => b ++ o
  | .tryBlock _ b hs o f _ => b ++ hs.flatMap Handler.body ++ o ++ f
  | .withBlock _ _ _ b | .define _ _ _ _ b _ _ | .defineClass _ _ _ _ b _ => b
  | .matchBlock _ _ cases => cases.flatMap MatchCase.body
  | _ => []

def Stmt.isImport : Stmt → Bool
  | .importing .. | .importFrom .. => true
  | _ => false

/-- A property that a statement has with the statements of its blocks, unless it is an import. -/
def Stmt.Inherited (φ : Stmt → Prop) : Prop := ∀ s, s.isImport = false → (∀ t ∈ s.nested, φ t) → φ s

namespace P

variable {φ : Stmt → Prop} {env : Env} {g : Grammar} [∀ r, Tame φ env (g r)] [Fact (env.explain = false)]

instance : Tame φ env assigningOperator := inferInstanceAs (Tame φ env (operator _))

instance : Tame φ env (assigned g) := by
  unfold assigned
  infer_instance

instance : Tame φ env dottedName := by
  unfold dottedName
  infer_instance

instance : Tame φ env boundName := by
  unfold boundName
  infer_instance

instance : Tame φ env importedModule := by
  unfold importedModule
  infer_instance

instance : Tame φ env importedNames := by
  unfold importedNames importedName
  infer_instance

instance : Tame φ env dots := by
  unfold dots
  infer_instance

instance : Tame φ env names := by
  unfold names
  infer_instance

instance : Tame φ env (withItem g) := by
  unfold withItem
  infer_instance

instance : Tame φ env (decorators g) := by
  unfold decorators
  infer_instance

instance : Tame φ env (subject g) := by
  unfold subject
  infer_instance

instance : Tame φ env (guardClause g) := by
  unfold guardClause
  infer_instance

section Statements

variable (hφ : Stmt.Inherited φ)

include hφ

omit [Fact (env.explain = false)] in
/-- A statement without blocks. -/
theorem keeps_plain {f : Span → Stmt} (h : ∀ sp, (f sp).isImport = false ∧ (f sp).nested = []) :
    Keeps φ env (Pure.pure f) fun f => ∀ sp, φ (f sp) :=
  .pure fun sp => hφ _ (h sp).1 ((h sp).2 ▸ nofun)

theorem keeps_assignment : Keeps φ env (assignment g) φ := by
  refine .rule (.orElse (.spanned ?_) (.orElse (.spanned ?_) (.orElse (.spanned ?_)
    (.orElse (.spanned ?_) inferInstance))))
  · exact .then_ fun _ => .then_ fun _ => .then_ fun _ => .then_ fun _ => keeps_plain hφ fun _ => ⟨rfl, rfl⟩
  · exact .then_ fun _ => .then_ fun _ => .then_ fun _ => .then_ fun _ => keeps_plain hφ fun _ => ⟨rfl, rfl⟩
  · exact .then_ fun _ => .then_ fun _ => .then_ fun _ => keeps_plain hφ fun _ => ⟨rfl, rfl⟩
  · exact .then_ fun _ => .then_ fun _ => .committed (.then_ fun _ => keeps_plain hφ fun _ => ⟨rfl, rfl⟩)

theorem keeps_deleteStatement : Keeps φ env (deleteStatement g) φ :=
  .orElse (.spanned (.then_ fun _ => .then_ fun _ => .then_ fun _ => keeps_plain hφ fun _ => ⟨rfl, rfl⟩)) inferInstance

theorem keeps_simpleStatement (himport : Keeps φ env importStatement φ) : Keeps φ env (simpleStatement g) φ := by
  refine .orElse (keeps_assignment hφ) (.orElse (.spanned ?_) (.orElse (.spanned ?_) (.orElse (.then_ fun _ => himport)
    (.then_ fun _ => .rule (keeps_deleteStatement hφ)))))
  · exact .then_ fun _ => .then_ fun _ => keeps_plain hφ fun _ => ⟨rfl, rfl⟩
  · refine .then_ fun t => ?_
    split
    case h_2 =>
      refine .then_ fun _ => .then_ fun o => ?_
      cases o with
      | none => exact keeps_plain hφ fun _ => ⟨rfl, rfl⟩
      | some e => exact .then_ fun _ => keeps_plain hφ fun _ => ⟨rfl, rfl⟩
    case h_10 => infer_instance
    all_goals
      repeat refine .then_ fun _ => ?_
      exact keeps_plain hφ fun _ => ⟨rfl, rfl⟩

end Statements

section Blocks

omit [∀ r, Tame φ env (g r)] [Fact (env.explain = false)] in
/-- The statements of a part that may be missing. -/
theorem keeps_optional {p : P (List Stmt)} (hp : Keeps φ env p fun ss => ∀ s ∈ ss, φ s) :
    Keeps φ env p.optional fun o => ∀ s ∈ o.getD [], φ s := by
  refine hp.optional.mono fun o ho => ?_
  cases o with
  | none => exact nofun
  | some ss => exact ho ss rfl

variable (hblock : Keeps φ env (g .block) fun ss => ∀ s ∈ ss, φ s)

include hblock

omit [∀ r, Tame φ env (g r)] in
theorem keeps_elseBlock : Keeps φ env (elseBlock g) fun ss => ∀ s ∈ ss, φ s :=
  .orElse inferInstance (.then_ fun _ => .then_ fun _ => hblock)

omit [∀ r, Tame φ env (g r)] in
theorem keeps_finallyBlock : Keeps φ env (finallyBlock g) fun ss => ∀ s ∈ ss, φ s :=
  .rule (.orElse inferInstance (.then_ fun _ => .then_ fun _ => hblock))

variable (hφ : Stmt.Inherited φ)

include hφ

theorem keeps_conditionClause (helif : Keeps φ env (g .elifClause) φ) (k : Keyword) (what : String) :
    Keeps φ env (conditionClause g k what) φ := by
  refine .orElse inferInstance (.orElse (.spanned ?_) (.spanned ?_))
  · refine .then_ fun _ => .then_ fun _ => .then_ fun _ => hblock.bind fun body hbody => helif.bind fun orelse ho => ?_
    exact .pure fun sp => hφ _ rfl (List.forall_mem_append.mpr ⟨hbody, List.forall_mem_singleton.mpr ho⟩)
  · refine .then_ fun _ => .then_ fun _ => .then_ fun _ => hblock.bind fun body hbody => ?_
    refine (keeps_optional (keeps_elseBlock hblock).rule).bind fun o ho => ?_
    exact .pure fun sp => hφ _ rfl (List.forall_mem_append.mpr ⟨hbody, ho⟩)

theorem keeps_whileStatement : Keeps φ env (whileStatement g) φ := by
  refine .orElse inferInstance (.spanned ?_)
  refine .then_ fun _ => .then_ fun _ => .then_ fun _ => hblock.bind fun body hbody => ?_
  refine (keeps_optional (keeps_elseBlock hblock).rule).bind fun o ho => ?_
  exact .pure fun sp => hφ _ rfl (List.forall_mem_append.mpr ⟨hbody, ho⟩)

theorem keeps_forStatement : Keeps φ env (forStatement g) φ := by
  refine .orElse inferInstance (.orElse (.spanned ?_) (.orElse (.spanned ?_) inferInstance))
  all_goals
    repeat refine .then_ fun _ => ?_
    refine .committed ?_
    refine .then_ fun _ => .then_ fun _ => hblock.bind fun body hbody => ?_
    refine (keeps_optional (keeps_elseBlock hblock).rule).bind fun o ho => ?_
    exact .pure fun sp => hφ _ rfl (List.forall_mem_append.mpr ⟨hbody, ho⟩)

theorem keeps_withStatement : Keeps φ env (withStatement g) φ := by
  refine .orElse inferInstance (.orElse (.spanned ?_) (.orElse (.spanned ?_) (.orElse (.spanned ?_)
    (.orElse (.spanned ?_) inferInstance))))
  all_goals
    repeat first | refine hblock.bind fun body hbody => ?_ | refine .then_ fun _ => ?_
    exact .pure fun sp => hφ _ rfl hbody

omit [∀ r, Tame φ env (g r)] in
/-- Handlers differ in their headers only. -/
theorem keeps_handler {p : P Handler} (hp : Keeps φ env p fun h => ∀ s ∈ h.body, φ s) (star : Bool) :
    Keeps φ env (spanned do
      let body ← (do let _ ← word .try_; let _ ← forced .colon ":"; g .block)
      let hs ← many1 p
      let orelse ← (rule (elseBlock g)).optional
      let final ← (finallyBlock g).optional
      return fun sp => .tryBlock sp body hs (orelse.getD []) (final.getD []) star) φ := by
  refine .spanned (.bind (.then_ fun _ => .then_ fun _ => hblock) fun body hbody => hp.many1.bind fun hs hhs => ?_)
  refine (keeps_optional (keeps_elseBlock hblock).rule).bind fun o ho => ?_
  refine (keeps_optional (keeps_finallyBlock hblock)).bind fun f hf => ?_
  refine .pure fun sp => hφ _ rfl (List.forall_mem_append.mpr ⟨List.forall_mem_append.mpr
    ⟨List.forall_mem_append.mpr ⟨hbody, fun s hs' => ?_⟩, ho⟩, hf⟩)
  obtain ⟨h, hh, hs'⟩ := List.mem_flatMap.mp hs'
  exact hhs h hh s hs'

theorem keeps_tryStatement : Keeps φ env (tryStatement g) φ := by
  have hexcept : Keeps φ env (exceptBlock g) fun h => ∀ s ∈ h.body, φ s := by
    refine .rule (.orElse inferInstance (.orElse (.spanned ?_) (.orElse (.spanned ?_) inferInstance)))
    · exact .then_ fun _ => .then_ fun _ => .then_ fun _ => .then_ fun _ => hblock.bind fun _ hb => .pure fun _ => hb
    · exact .then_ fun _ => .then_ fun _ => hblock.bind fun _ hb => .pure fun _ => hb
  have hstar : Keeps φ env (exceptStarBlock g) fun h => ∀ s ∈ h.body, φ s := by
    refine .rule (.orElse inferInstance (.orElse (.spanned ?_) inferInstance))
    exact .then_ fun _ => .then_ fun _ => .then_ fun _ => .then_ fun _ => .then_ fun _ =>
      hblock.bind fun _ hb => .pure fun _ => hb
  refine .orElse inferInstance (.orElse (.spanned ?_) (.orElse (keeps_handler hblock hφ hexcept false)
    (keeps_handler hblock hφ hstar true)))
  refine .bind (.then_ fun _ => .then_ fun _ => hblock) fun body hbody => ?_
  refine (keeps_finallyBlock hblock).bind fun f hf => .pure fun sp => hφ _ rfl ?_
  simpa only [Stmt.nested, List.flatMap_nil, List.append_nil] using List.forall_mem_append.mpr ⟨hbody, hf⟩

theorem keeps_classStatement (ds : List Expr) : Keeps φ env (classStatement g ds) φ := by
  refine .rule (.orElse inferInstance (.spanned ?_))
  exact .then_ fun _ => .then_ fun _ => .then_ fun _ => .then_ fun _ => hblock.bind fun body hbody =>
    .pure fun sp => hφ _ rfl hbody

theorem keeps_functionStatement (ds : List Expr) : Keeps φ env (functionStatement g ds) φ := by
  refine .rule (.orElse inferInstance (.orElse (.spanned ?_) (.spanned ?_)))
  all_goals
    repeat first | refine hblock.bind fun body hbody => ?_ | refine .then_ fun _ => ?_
    exact .pure fun sp => hφ _ rfl hbody

theorem keeps_matchStatement : Keeps φ env (matchStatement g) φ := by
  have hcase : Keeps φ env (caseBlock g) fun c => ∀ s ∈ c.body, φ s := by
    refine .rule (.orElse inferInstance ?_)
    exact .then_ fun _ => .then_ fun _ => .then_ fun _ => .then_ fun _ => hblock.bind fun _ hb => .pure hb
  refine .orElse (.spanned ?_) inferInstance
  refine .then_ fun _ => .then_ fun _ => .then_ fun _ => .then_ fun _ => .then_ fun _ => hcase.many1.bind fun cs hcs => ?_
  refine .then_ fun _ => .pure fun sp => hφ _ rfl fun s hs => ?_
  obtain ⟨c, hc, hs⟩ := List.mem_flatMap.mp hs
  exact hcs c hc s hs

theorem keeps_compoundStatement (helif : Keeps φ env (g .elifClause) φ) : Keeps φ env (compoundStatement g) φ := by
  have hdecorated {definition : List Expr → P Stmt} (h : ∀ ds, Keeps φ env (definition ds) φ) :
      Keeps φ env (rule (decorated g definition)) φ := .rule (.orElse (.then_ fun ds => h ds) (h []))
  have hdef := hdecorated (keeps_functionStatement hblock hφ)
  have hclass := hdecorated (keeps_classStatement hblock hφ)
  have hwith := (keeps_withStatement hblock hφ).rule
  have hfor := (keeps_forStatement hblock hφ).rule
  refine .then_ fun t => .orElse ?_ (.rule (keeps_matchStatement hblock hφ))
  split
  · exact hdef
  · exact hdef.orElse hclass
  · exact hdef.orElse (hwith.orElse hfor)
  · exact .rule (keeps_conditionClause hblock hφ helif _ _)
  · exact hclass
  · exact hwith
  · exact hfor
  · exact .rule (keeps_tryStatement hblock hφ)
  · exact .rule (keeps_whileStatement hblock hφ)
  · infer_instance

end Blocks

section Grammar

omit [∀ r, Tame φ env (g r)] [Fact (env.explain = false)] in
theorem keeps_simpleStatements (hsimple : Keeps φ env (g .simpleStatement) φ) :
    Keeps φ env (simpleStatements g) fun ss => ∀ s ∈ ss, φ s := by
  refine .orElse (hsimple.bind fun s hs => .then_ fun _ => .then_ fun _ => .pure ?_)
    ((hsimple.sepBy1 inferInstance).bind fun ss hss => .then_ fun _ => .then_ fun _ => .pure hss)
  exact List.forall_mem_singleton.mpr hs

theorem keeps_statements (hφ : Stmt.Inherited φ) (hg : ∀ r, Keeps φ env (g r) (r.Fits φ)) :
    Keeps φ env (statements g) fun ss => ∀ s ∈ ss, φ s := by
  have hcompound := keeps_compoundStatement (hg .block) hφ (hg .elifClause)
  have hgroup : Keeps φ env ((do return [← rule (compoundStatement g)]) <|> rule (simpleStatements g))
      fun ss => ∀ s ∈ ss, φ s :=
    .orElse (hcompound.rule.bind fun s hs => .pure (List.forall_mem_singleton.mpr hs))
      (.rule (keeps_simpleStatements (hg .simpleStatement)))
  refine hgroup.many1.bind fun groups hgroups => .pure fun s hs => ?_
  obtain ⟨ss, hss, hs⟩ := List.mem_flatten.mp hs
  exact hgroups ss hss s hs

omit [∀ r, Tame φ env (g r)] in
theorem keeps_block (hg : ∀ r, Keeps φ env (g r) (r.Fits φ)) : Keeps φ env (block g) fun ss => ∀ s ∈ ss, φ s :=
  .orElse (.then_ fun _ => .then_ fun _ => (hg .statements).bind fun _ hss => .then_ fun _ => .pure hss)
    (.orElse (keeps_simpleStatements (hg .simpleStatement)) inferInstance)

/-- One case for each rule: the rules of expressions ask nothing of their answers. -/
theorem keeps_rules (hφ : Stmt.Inherited φ) (himport : Keeps φ env importStatement φ) (field : FieldParser)
    (hg : ∀ r, Keeps φ env (g r) (r.Fits φ)) (r : Rule) : Keeps φ env (rules field g r) (r.Fits φ) := by
  cases r with
  | statements => exact keeps_statements hφ hg
  | block => exact keeps_block hg
  | simpleStatement => exact keeps_simpleStatement hφ himport
  | elifClause => exact keeps_conditionClause (hg .block) hφ (hg .elifClause) _ _
  | _ =>
    dsimp only [rules]
    change Tame φ env _
    infer_instance

theorem keeps_grammar (hφ : Stmt.Inherited φ) (himport : Keeps φ env importStatement φ) (field : FieldParser) (n : Nat) :
    ∀ r, Keeps φ env (grammar field n r) (r.Fits φ) := by
  induction n with
  | zero => exact fun r => inferInstanceAs (Keeps φ env P.fail (r.Fits φ))
  | succ n ih =>
    intro r
    have : ∀ r, Tame φ env (grammar field n r) := fun r => (ih r).tame
    have hrules := keeps_rules hφ himport field ih r
    rw [grammar]
    dsimp only
    split
    · exact .remembered hrules
    · exact hrules.rule

end Grammar

end P

/-- What holds of import statements, and of other statements with those in their blocks, holds of all statements of a
program. -/
theorem forall_of_parse {φ : Stmt → Prop} (hφ : Stmt.Inherited φ) {text : List Char} {bdfl : Bool} {body : List Stmt}
    (himport : Keeps φ (prepare text ⟨0, 0, 0⟩ false bdfl).1 P.importStatement φ)
    (h : (parse text bdfl).1 = .ok body) : ∀ s ∈ body, φ s := by
  obtain ⟨-, st, h⟩ := parse_ok.mp h
  have : Fact ((prepare text ⟨0, 0, 0⟩ false bdfl).1.explain = false) := ⟨rfl⟩
  have hfile : Keeps φ (prepare text ⟨0, 0, 0⟩ false bdfl).1 (P.file (grammarOf text bdfl)) fun ss => ∀ s ∈ ss, φ s :=
    (P.keeps_optional (P.keeps_grammar hφ himport _ _ .statements)).bind fun o ho => .then_ fun _ => .pure ho
  have hfirst : State.Sound φ (.initial (TokenStream.ofText text).tokens.size 0 []) := by
    intro es hes e he
    obtain rfl := (Array.mem_replicate.mp hes).2
    cases he
  have hreply := hfile.keeps _ hfirst
  rw [h] at hreply
  exact hreply.2

end Evalbox.Lang
