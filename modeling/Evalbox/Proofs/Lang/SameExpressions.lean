import Evalbox.Proofs.Lang.SameLiterals

/-!
# Expressions do the same in two runs

Every parser of expressions, targets, parameters, patterns and simple statements is built from others that do the same
in both runs, if the rules it refers to do. The rules it tries before it has read a token are of a lower rank than its
own.
-/

namespace Evalbox.Lang.P

open Parse Same

set_option synthInstance.maxSize 2000

variable {D : Duo} {g g' : Grammar} {b : Nat}

/-! ## Rules -/

section Calls

variable (n : Nat)

/-- A rule may be called where all rules of its rank may. -/
theorem same_call (r : Rule) [Kin r.Out] (hr : r.isInner = true) (halike : r.alike = Kin.alike) :
    Same D g g' (n + (r.rank + 1)) 1 (g r) (g' r) where
  meets _ _ _ h := halike ▸ h.here r hr (Nat.lt_add_left n (Nat.lt_succ_self _))

instance : Same D g g' (n + 1) 1 (g .strings) (g' .strings) := same_call n .strings rfl rfl

instance : Same D g g' (n + 1) 1 (g .lambdaParams) (g' .lambdaParams) := same_call n .lambdaParams rfl rfl

instance : Same D g g' (n + 2) 1 (g .primary) (g' .primary) := same_call n .primary rfl rfl

instance : Same D g g' (n + 2) 1 (g .targetPrimary) (g' .targetPrimary) := same_call n .targetPrimary rfl rfl

instance : Same D g g' (n + 2) 1 (g .annotatedTarget) (g' .annotatedTarget) := same_call n .annotatedTarget rfl rfl

instance : Same D g g' (n + 2) 1 (g .closedPattern) (g' .closedPattern) := same_call n .closedPattern rfl rfl

instance : Same D g g' (n + 3) 1 (g .awaitPrimary) (g' .awaitPrimary) := same_call n .awaitPrimary rfl rfl

instance : Same D g g' (n + 3) 1 (g .targetWithStarAtom) (g' .targetWithStarAtom) := same_call n .targetWithStarAtom rfl rfl

instance : Same D g g' (n + 3) 1 (g .deleteTarget) (g' .deleteTarget) := same_call n .deleteTarget rfl rfl

instance : Same D g g' (n + 3) 1 (g .singleTarget) (g' .singleTarget) := same_call n .singleTarget rfl rfl

instance : Same D g g' (n + 3) 1 (g .pattern) (g' .pattern) := same_call n .pattern rfl rfl

instance : Same D g g' (n + 4) 1 (g .factor) (g' .factor) := same_call n .factor rfl rfl

instance : Same D g g' (n + 4) 1 (g .starTarget) (g' .starTarget) := same_call n .starTarget rfl rfl

instance : Same D g g' (n + 5) 1 (g .bitwiseOr) (g' .bitwiseOr) := same_call n .bitwiseOr rfl rfl

instance : Same D g g' (n + 6) 1 (g .inversion) (g' .inversion) := same_call n .inversion rfl rfl

instance : Same D g g' (n + 7) 1 (g .conjunction) (g' .conjunction) := same_call n .conjunction rfl rfl

instance : Same D g g' (n + 8) 1 (g .disjunction) (g' .disjunction) := same_call n .disjunction rfl rfl

instance : Same D g g' (n + 9) 1 (g .expression) (g' .expression) := same_call n .expression rfl rfl

instance : Same D g g' (n + 10) 1 (g .starExpression) (g' .starExpression) := same_call n .starExpression rfl rfl

instance : Same D g g' (n + 10) 1 (g .namedExpression) (g' .namedExpression) := same_call n .namedExpression rfl rfl

instance : Same D g g' (n + 11) 1 (g .arguments) (g' .arguments) := same_call n .arguments rfl rfl

end Calls

instance : Same D g g' b 1 comma comma := inferInstanceAs (Same D g g' b 1 (symbol _) (symbol _))

instance : Same D g g' b 1 colon colon := inferInstanceAs (Same D g g' b 1 (symbol _) (symbol _))

instance : Same D g g' b 1 nameExpr nameExpr := by
  unfold nameExpr
  infer_instance

/-! ## Operators -/

/-- A table of operators none of which parts statements. -/
class Operators (table : List (Sym × BinaryOp)) : Prop where
  lookup : table.lookup .semi = none

instance : Operators [] := ⟨rfl⟩

instance {s : Sym} {o : BinaryOp} {table : List (Sym × BinaryOp)} [h : Evident (inner s) true] [ht : Operators table] :
    Operators ((s, o) :: table) where
  lookup := by
    have hs : (Sym.semi == s) = false := by
      rw [beq_eq_false_iff_ne]
      rintro rfl
      cases h.eq
    rw [List.lookup_cons, hs]
    exact ht.lookup

instance (table : List (Sym × BinaryOp)) [h : Operators table] :
    Same D g g' b 1 (operator table) (operator table) := by
  refine accept_lexeme (fun _ => rfl) (fun t u htu => by rw [htu]) fun t ht => ?_
  split
  · rename_i s hs
    rw [hs] at ht
    cases s <;> first | exact h.lookup | cases ht
  · rfl

instance {operand operand' : P Expr} {op op' : P BinaryOp} [ho : Same D g g' b 1 operand operand']
    [hop : Same D g g' b 1 op op'] : Same D g g' b 1 (leftAssociative operand op) (leftAssociative operand' op') := by
  have := ho.full
  have := hop.full
  unfold leftAssociative
  infer_instance

variable (n : Nat)

instance : Same D g g' (n + 3) 1 (power g) (power g') := by
  unfold power
  refine bind_zero inferInstance fun a a' _ => bind_one (d := 0) inferInstance fun e e' he =>
    bind_zero inferInstance fun o o' ho => ?_
  have : Alike e e' := ⟨he⟩
  cases ho with
  | none => infer_instance
  | some hx =>
    have := Alike.mk hx
    infer_instance

instance : Same D g g' (n + 3) 1 (factor g) (factor g') := by
  unfold factor
  dsimp only
  infer_instance

instance : Same D g g' (n + 4) 1 (bitwiseOr g) (bitwiseOr g') := by
  unfold bitwiseOr bitwiseXor bitwiseAnd shift sum term
  infer_instance

/-- Which spelling is in force is the same in both runs. -/
instance : Same D g g' b 1 inequality inequality := by
  unfold inequality
  refine bind_one (d := 0) (accept_lexeme (fun _ => rfl) (fun t u htu => by rw [htu]) fun t ht => ?_)
    fun old old' hold => ?_
  · split
    · rename_i hs
      rw [hs] at ht
      cases ht
    · rename_i hs
      rw [hs] at ht
      cases ht
    · rfl
  · obtain rfl : old = old' := hold
    refine bind_env ?_
    rw [D.bdfl]
    infer_instance

instance : Same D g g' b 1 compareOp compareOp := by
  unfold compareOp
  dsimp only
  infer_instance

instance : Same D g g' (n + 5) 1 (comparison g) (comparison g') := by
  unfold comparison
  infer_instance

instance : Same D g g' (n + 5) 1 (inversion g) (inversion g') := by
  unfold inversion
  infer_instance

instance (k : Keyword) (conjunction : Bool) {operand operand' : P Expr} [h : Same D g g' b 1 operand operand'] :
    Same D g g' b 1 (booleanChain k conjunction operand) (booleanChain k conjunction operand') := by
  have := h.full
  unfold booleanChain
  infer_instance

instance : Same D g g' (n + 6) 1 (conjunction g) (conjunction g') := by
  unfold conjunction
  infer_instance

instance : Same D g g' (n + 7) 1 (disjunction g) (disjunction g') := by
  unfold disjunction
  infer_instance

instance : Same D g g' (n + 8) 1 (plainExpression g) (plainExpression g') := by
  unfold plainExpression
  infer_instance

instance : Same D g g' (n + 9) 1 (starExpression g) (starExpression g') := by
  unfold starExpression
  infer_instance

instance {item item' : P Expr} [h : Same D g g' b 1 item item'] :
    Same D g g' b 1 (tupleOr item) (tupleOr item') := by
  have := h.full
  unfold tupleOr
  infer_instance

instance : Same D g g' (n + 8) 1 (expression g) (expression g') := by
  unfold expression
  infer_instance

instance : Same D g g' (n + 10) 1 (starExpressions g) (starExpressions g') := by
  unfold starExpressions
  infer_instance

instance : Same D g g' (n + 10) 1 (starNamedExpression g) (starNamedExpression g') := by
  unfold starNamedExpression
  infer_instance

instance : Same D g g' (n + 10) 1 (starNamedExpressions g) (starNamedExpressions g') := by
  unfold starNamedExpressions
  infer_instance

instance : Same D g g' b 1 (assignmentExpression g) (assignmentExpression g') := by
  unfold assignmentExpression
  infer_instance

instance : Same D g g' (n + 9) 1 (namedExpression g) (namedExpression g') := by
  unfold namedExpression
  infer_instance

instance : Same D g g' b 1 (yieldExpr g) (yieldExpr g') := by
  unfold yieldExpr
  infer_instance

/-! ## Targets -/

instance : Same D g g' b 1 targetContinues targetContinues := by
  unfold targetContinues
  infer_instance

instance : Same D g g' (n + 10) 1 (slice g) (slice g') := by
  unfold slice
  infer_instance

instance : Same D g g' b 1 (starredExpression g) (starredExpression g') := by
  unfold starredExpression
  infer_instance

instance : Same D g g' (n + 10) 1 (slices g) (slices g') := by
  unfold slices
  infer_instance

instance : Same D g g' (n + 4) 1 (starTargets g) (starTargets g') := by
  unfold starTargets
  infer_instance

instance {targets targets' : P Expr} [Same D g g' 13 1 targets targets'] :
    Same D g g' b 1 (clause g targets) (clause g' targets') := by
  unfold clause
  dsimp only
  infer_instance

instance : Same D g g' b 1 (clauses g) (clauses g') := by
  unfold clauses
  infer_instance

instance : Same D g g' (n + 2) 1 (memberTarget g) (memberTarget g') := by
  unfold memberTarget
  infer_instance

instance : Same D g g' (n + 2) 1 (starAtom g) (starAtom g') := by
  unfold starAtom starTargetsTuple starTargetsList
  infer_instance

instance : Same D g g' (n + 2) 1 (targetWithStarAtom g) (targetWithStarAtom g') := by
  unfold targetWithStarAtom
  infer_instance

instance : Same D g g' (n + 3) 1 (starTarget g) (starTarget g') := by
  unfold starTarget
  infer_instance

instance : Same D g g' (n + 2) 1 (singleTarget g) (singleTarget g') := by
  unfold singleTarget
  infer_instance

instance : Same D g g' (n + 3) 1 (deleteTargets g) (deleteTargets g') := by
  unfold deleteTargets
  infer_instance

instance : Same D g g' (n + 2) 1 (deleteTarget g) (deleteTarget g') := by
  unfold deleteTarget
  infer_instance

/-! ## Displays and comprehensions -/

instance : Same D g g' b 1 (list g) (list g') := by
  unfold list
  infer_instance

instance : Same D g g' b 1 (tuple g) (tuple g') := by
  unfold tuple
  infer_instance

instance : Same D g g' b 1 (set g) (set g') := by
  unfold set
  infer_instance

instance : Same D g g' (n + 9) 1 (keyValue g) (keyValue g') := by
  unfold keyValue
  infer_instance

instance : Same D g g' (n + 9) 1 (dictItem g) (dictItem g') := by
  unfold dictItem
  infer_instance

instance : Same D g g' (n + 9) 1 (dictItems g) (dictItems g') := by
  unfold dictItems
  infer_instance

section Rejected

/-! These complaints about a display are made in the first run already. -/

variable {α : Type} [Kin α]

instance : Same D g g' (n + 9) 1 (explainDictValue g : P α) (explainDictValue g') := by
  unfold explainDictValue
  infer_instance

instance : Same D g g' (n + 9) 1 (explainKeyValue g : P α) (explainKeyValue g') := by
  unfold explainKeyValue
  infer_instance

instance : Same D g g' (n + 9) 1 (explainDictItems g : P α) (explainDictItems g') := by
  unfold explainDictItems
  infer_instance

end Rejected

instance : Same D g g' b 1 (dict g) (dict g') := by
  unfold dict
  infer_instance

instance : Same D g g' b 1 (listComprehension g) (listComprehension g') := by
  unfold listComprehension
  infer_instance

instance : Same D g g' b 1 (setComprehension g) (setComprehension g') := by
  unfold setComprehension
  infer_instance

instance : Same D g g' b 1 (dictComprehension g) (dictComprehension g') := by
  unfold dictComprehension
  infer_instance

instance : Same D g g' (n + 9) 1 (unassigned g) (unassigned g') := by
  unfold unassigned
  infer_instance

instance : Same D g g' b 1 (generator g) (generator g') := by
  unfold generator
  infer_instance

instance : Same D g g' b 1 (group g) (group g') := by
  unfold group
  infer_instance

/-! ## Atoms, calls and members -/

instance : Same D g g' b 1 number number := by
  refine Same.accept (fun t u htu => ?_) fun t ht => ?_
  · rw [htu]
    split
    · split
      · exact .some rfl
      · exact .some rfl
      · exact .some rfl
    · exact .none
  · split
    · rename_i h
      rw [h] at ht
      cases ht
    · rfl

instance : Same D g g' b 1 checkedNumber checkedNumber := by
  unfold checkedNumber
  refine bind_zero inferInstance fun t u (htu : t.lexeme = u.lexeme) => ?_
  rw [htu]
  split
  · dsimp only
    infer_instance
  · infer_instance

instance (k : Keyword) (c : Constant) : Same D g g' b 1 (constantWord k c) (constantWord k c) := by
  unfold constantWord
  infer_instance

instance : Same D g g' (n + 1) 1 (atom g) (atom g') := by
  unfold atom
  refine bind_zero inferInstance fun t u (htu : t.lexeme = u.lexeme) => ?_
  rw [htu]
  split <;> infer_instance

instance (a a' : Place) {e e' : Expr} [Alike e e'] : Same D g g' b 1 (trailer g a e) (trailer g' a' e') := by
  have hcall : Same D g g' b 1
      (do
        let _ ← symbol .lpar
        let args ← (g .arguments).optional
        let _ ← symbol .rpar
        let sp ← spanFrom a
        match args with
        | some args => return .call sp e args.positional args.keywords
        | none => return .call sp e [] [] : P Expr)
      (do
        let _ ← symbol .lpar
        let args ← (g' .arguments).optional
        let _ ← symbol .rpar
        let sp ← spanFrom a'
        match args with
        | some args => return .call sp e' args.positional args.keywords
        | none => return .call sp e' [] []) := by
    refine bind_one (d := 1) inferInstance fun _ _ _ => bind_zero inferInstance fun o o' ho => ?_
    cases ho with
    | none => infer_instance
    | some h =>
      have := Alike.mk h
      infer_instance
  unfold trailer
  infer_instance

instance : Same D g g' (n + 1) 1 (primary g) (primary g') := by
  unfold primary
  infer_instance

instance : Same D g g' (n + 1) 1 (targetPrimary g) (targetPrimary g') := by
  unfold targetPrimary
  infer_instance

instance : Same D g g' (n + 2) 1 (awaitPrimary g) (awaitPrimary g') := by
  unfold awaitPrimary
  infer_instance

/-! ## Arguments of calls -/

instance : Kin LateArg where
  alike
    | .positional e, .positional e' => Kin.alike e e'
    | .keyword k, .keyword k' => Kin.alike k k'
    | _, _ => False

instance {e e' : Expr} [h : Alike e e'] : Alike (LateArg.positional e) (.positional e') := ⟨h.alike⟩

instance {k k' : KeywordArg} [h : Alike k k'] : Alike (LateArg.keyword k) (.keyword k') := ⟨h.alike⟩

instance {l l' : List Expr} {as as' : List LateArg} [h : Alike l l'] [ha : Alike as as'] (s s' : Span) :
    Alike (collectArgs l as s) (collectArgs l' as' s') := by
  have hpositional : List.Forall₂ Kin.alike
      (as.filterMap fun | .positional e => some e | .keyword _ => none)
      (as'.filterMap fun | .positional e => some e | .keyword _ => none) := by
    refine List.rel_filterMap (fun a a' haa => ?_) ha.alike
    cases a <;> cases a'
    · exact .some haa
    · cases haa
    · cases haa
    · exact .none
  have hkeyword : List.Forall₂ Kin.alike
      (as.filterMap fun | .positional _ => none | .keyword k => some k)
      (as'.filterMap fun | .positional _ => none | .keyword k => some k) := by
    refine List.rel_filterMap (fun a a' haa => ?_) ha.alike
    cases a <;> cases a'
    · exact .none
    · cases haa
    · cases haa
    · exact .some haa
  exact ⟨List.rel_append h.alike hpositional, hkeyword⟩

instance : Same D g g' b 1 (namedArg g) (namedArg g') := by
  unfold namedArg
  infer_instance

instance : Same D g g' b 1 (keywordOrStarred g) (keywordOrStarred g') := by
  unfold keywordOrStarred
  infer_instance

instance : Same D g g' b 1 (keywordOrDoubleStarred g) (keywordOrDoubleStarred g') := by
  unfold keywordOrDoubleStarred
  infer_instance

instance : Same D g g' b 1 (lateArgs g) (lateArgs g') := by
  unfold lateArgs
  infer_instance

instance : Same D g g' (n + 9) 1 (args g) (args g') := by
  unfold args
  infer_instance

instance : Same D g g' (n + 9) 1 (arguments g) (arguments g') := by
  unfold arguments
  infer_instance

/-! ## Displays as targets -/

instance : Same D g g' b 1 (annotatedDisplay g) (annotatedDisplay g') := by
  unfold annotatedDisplay
  infer_instance

/-! ## Parameters -/

section Parameters

/-- What differs between the two forms of a parameter list does the same in both runs. -/
class SameStyle (D : Duo) (g g' : Grammar) (s s' : Style) : Prop where
  param : ∀ b, Same D g g' b 1 s.param s'.param
  starParam : ∀ b, Same D g g' b 1 s.starParam s'.starParam
  closing : s'.closing = s.closing
  inner : inner s.closing = true

instance : SameStyle D g g' (defStyle g) (defStyle g') where
  param b := by
    unfold defStyle annotatedParam
    infer_instance
  starParam b := by
    unfold defStyle
    infer_instance
  closing := rfl
  inner := rfl

instance : SameStyle D g g' lambdaStyle lambdaStyle where
  param b := by
    unfold lambdaStyle
    infer_instance
  starParam b := inferInstanceAs (Same D g g' b 1 P.fail P.fail)
  closing := rfl
  inner := rfl

instance : Kin Tail where
  alike t t' := Kin.alike t.rest t'.rest ∧ Kin.alike t.keywordOnly t'.keywordOnly ∧
    Kin.alike t.keywordRest t'.keywordRest

instance {r r' kr kr' : Option Param} {ko ko' : List (Param × Option Expr)} [h : Alike r r'] [hko : Alike ko ko']
    [hkr : Alike kr kr'] : Alike (Tail.mk r ko kr) ⟨r', ko', kr'⟩ := ⟨h.alike, hko.alike, hkr.alike⟩

instance {po po' p p' : List (Param × Option Expr)} {t t' : Option Tail} [Alike po po'] [Alike p p']
    [ht : Alike t t'] : Alike (assemble po p t) (assemble po' p' t') := by
  have (x : Akin Tail) : Alike x.left.rest x.right.rest := ⟨x.alike.1⟩
  have (x : Akin Tail) : Alike x.left.keywordOnly x.right.keywordOnly := ⟨x.alike.2.1⟩
  have (x : Akin Tail) : Alike x.left.keywordRest x.right.keywordRest := ⟨x.alike.2.2⟩
  have (x : Akin Tail) : Alike (Params.mk (po.map (·.1)) (p.map (·.1)) x.left.rest (x.left.keywordOnly.map (·.1))
      (x.left.keywordOnly.map (·.2)) x.left.keywordRest ((po ++ p).filterMap (·.2)))
      (.mk (po'.map (·.1)) (p'.map (·.1)) x.right.rest (x.right.keywordOnly.map (·.1))
      (x.right.keywordOnly.map (·.2)) x.right.keywordRest ((po' ++ p').filterMap (·.2))) := inferInstance
  unfold assemble
  dsimp only
  exact this ⟨_, _, (inferInstance : Alike (t.getD ⟨none, [], none⟩) (t'.getD ⟨none, [], none⟩)).alike⟩

variable {s s' : Style} [h : SameStyle D g g' s s']

instance : Same D g g' b 1 s.param s'.param := h.param b

instance : Same D g g' b 1 s.starParam s'.starParam := h.starParam b

instance : Same D g g' b 1 (symbol s.closing) (symbol s'.closing) := by
  have : Evident (Same.inner s.closing) true := ⟨h.inner⟩
  rw [h.closing]
  infer_instance

instance : Same D g g' b 0 (paramEnd s) (paramEnd s') := by
  unfold paramEnd
  infer_instance

instance : Same D g g' b 1 (defaultValue g s) (defaultValue g' s') := by
  unfold defaultValue
  infer_instance

instance : Same D g g' b 1 (plainParam s) (plainParam s') := by
  unfold plainParam
  infer_instance

instance : Same D g g' b 1 (starredParam s) (starredParam s') := by
  unfold starredParam
  infer_instance

instance : Same D g g' b 1 (defaultedParam g s) (defaultedParam g' s') := by
  unfold defaultedParam
  infer_instance

instance : Same D g g' b 1 (anyParam g s) (anyParam g' s') := by
  unfold anyParam
  infer_instance

instance : Same D g g' b 1 (slashPlain s) (slashPlain s') := by
  unfold slashPlain slash
  infer_instance

instance : Same D g g' b 1 (slashDefaulted g s) (slashDefaulted g' s') := by
  unfold slashDefaulted slash
  infer_instance

instance : Same D g g' b 1 (keywordRest s) (keywordRest s') := by
  unfold keywordRest
  infer_instance

instance : Same D g g' b 1 (starTail g s) (starTail g' s') := by
  unfold starTail
  infer_instance

instance : Same D g g' b 1 (params g s) (params g' s') := by
  unfold params parameters
  dsimp only
  infer_instance

end Parameters

/-! ## Patterns -/

instance : Same D g g' b 1 signedNumber signedNumber := by
  unfold signedNumber
  infer_instance

theorem constant_of_bare {e : Expr} {c : Constant} (h : Expr.bare e = .constant default c) : ∃ s, e = .constant s c := by
  cases e <;> cases h
  exact ⟨_, rfl⟩

instance : Same D g g' b 1 complexNumber complexNumber := by
  unfold complexNumber
  refine Same.spanned (bind_one (d := 1) inferInstance fun real real' hreal => bind_one (d := 1) inferInstance
    fun op op' hop => bind_one (d := 0) inferInstance fun unit unit' hunit => ?_)
  have := Alike.mk hreal
  have := Alike.mk hop
  have := Alike.mk hunit
  -- the same constant is told apart in both runs
  split
  · obtain ⟨s, rfl⟩ := constant_of_bare (Eq.symm hunit)
    infer_instance
  · rename_i hnot
    split
    · obtain ⟨s, rfl⟩ := constant_of_bare hunit
      exact absurd rfl (hnot _ _)
    · exact (inferInstance : Same D g g' 13 1 (rejectSpan unit.span _) (rejectSpan unit'.span _)).weaken (Nat.zero_le 1)

instance (members : Bool) : Same D g g' b 1 (dottedValue members) (dottedValue members) := by
  unfold dottedValue
  dsimp only
  infer_instance

instance : Same D g g' (n + 1) 1 (literalValue g) (literalValue g') := by
  unfold literalValue loneNumber
  infer_instance

instance : Same D g g' (n + 1) 1 (literalKey g) (literalKey g') := by
  unfold literalKey
  infer_instance

instance : Same D g g' (n + 1) 1 (literalPattern g) (literalPattern g') := by
  unfold literalPattern
  infer_instance

instance : Same D g g' b 1 captureTarget captureTarget := by
  unfold captureTarget
  infer_instance

instance : Same D g g' (n + 3) 1 (maybeStarPattern g) (maybeStarPattern g') := by
  unfold maybeStarPattern starPattern
  infer_instance

instance : Same D g g' (n + 3) 1 (maybeSequence g) (maybeSequence g') := by
  unfold maybeSequence
  infer_instance

instance : Same D g g' (n + 3) 1 (openSequence g) (openSequence g') := by
  unfold openSequence
  infer_instance

instance : Same D g g' b 1 (sequencePattern g) (sequencePattern g') := by
  unfold sequencePattern
  infer_instance

instance : Same D g g' (n + 1) 1 (keyPattern g) (keyPattern g') := by
  unfold keyPattern
  infer_instance

instance : Same D g g' b 1 (mappingPattern g) (mappingPattern g') := by
  unfold mappingPattern restPattern
  infer_instance

instance : Same D g g' b 1 (classPattern g) (classPattern g') := by
  unfold classPattern keywordPatterns keywordPattern positionalPatterns
  dsimp only
  infer_instance

instance : Same D g g' (n + 1) 1 (closedPattern g) (closedPattern g') := by
  unfold closedPattern
  infer_instance

instance : Same D g g' (n + 2) 1 (orPattern g) (orPattern g') := by
  unfold orPattern
  refine bind_zero inferInstance fun a a' _ => bind_one (d := 0) inferInstance fun ps ps' hps => ?_
  have hps' := Alike.mk hps
  cases hps with
  | nil => infer_instance
  | cons hp hps =>
    have := Alike.mk hp
    cases hps with
    | nil => infer_instance
    | cons => infer_instance

instance : Same D g g' (n + 2) 1 (pattern g) (pattern g') := by
  unfold pattern
  infer_instance

instance : Same D g g' (n + 3) 1 (patterns g) (patterns g') := by
  unfold patterns
  infer_instance

/-! ## Simple statements -/

instance : Same D g g' b 1 assigningOperator assigningOperator := by
  unfold assigningOperator
  infer_instance

instance : Same D g g' (n + 10) 1 (assigned g) (assigned g') := by
  unfold assigned
  infer_instance

instance : Same D g g' (n + 4) 1 (assignment g) (assignment g') := by
  unfold assignment
  infer_instance

instance : Same D g g' b 1 dottedName dottedName := by
  unfold dottedName
  infer_instance

instance : Same D g g' b 0 boundName boundName := by
  unfold boundName
  infer_instance

instance : Same D g g' b 1 importedModule importedModule := by
  unfold importedModule
  infer_instance

instance : Same D g g' b 1 importedName importedName := by
  unfold importedName
  infer_instance

instance : Same D g g' b 1 importedNames importedNames := by
  unfold importedNames
  infer_instance

instance : Same D g g' b 1 dots dots := by
  unfold dots
  infer_instance

instance : Same D g g' b 1 importStatement importStatement := by
  unfold importStatement
  infer_instance

instance : Same D g g' b 1 names names := by
  unfold names
  infer_instance

instance : Same D g g' b 1 (deleteStatement g) (deleteStatement g') := by
  unfold deleteStatement
  infer_instance

instance : Same D g g' (n + 10) 1 (simpleStatement g) (simpleStatement g') := by
  unfold simpleStatement
  -- the word in front tells which statement it is
  refine .orElse inferInstance (.orElse inferInstance (.orElse (Same.spanned (bind_token
    fun t u htu m stop hw hr ht => ?_)) inferInstance))
  rw [htu]
  have hword {k : Keyword} (h : u.lexeme = .word k) : t.lexeme.isWall = false := by rw [htu, h]; rfl
  split
  case h_2 h =>
    refine Same.advance (hword h) (bind_zero (d := 0) inferInstance fun o o' ho => ?_) hw hr ht
    cases ho with
    | none => infer_instance
    | some he =>
      have := Alike.mk he
      infer_instance
  case h_9 => exact (inferInstance : Same D g g' (n + 10) 1 _ _).meets m stop hw hr
  case h_10 => exact .fail
  all_goals exact Same.advance (hword ‹_›) inferInstance hw hr ht

end Evalbox.Lang.P
