import Evalbox.Lang.Parse
import Evalbox.Proofs.Lang.Memory

/-!
# Expressions remember no statements

The parsers of expressions, targets, parameters, patterns and literals answer no statements, and what they remember of
their own rules is unfit for none. Each is built from others that are tame. The expressions in the fields of a literal
are parsed on their own, with a memory of their own, so whatever their parser is, nothing of theirs is remembered.
-/

namespace Evalbox.Lang.P

open Parse

variable {φ : Stmt → Prop} {env : Env}

/-! ## Literals -/

section Pieces

variable (field : FieldParser) (t : Token) (span : Span) (raw : Bool)

instance (body : List Char) : Tame φ env (unescaped t raw body) := by
  unfold unescaped
  split
  · infer_instance
  · split
    · infer_instance
    · split <;> infer_instance

/-- Noting warnings adds nothing to what is remembered. -/
instance (ws : List Warning) :
    Tame φ env (fun _ st => .ok () { st with warnings := ws ++ st.warnings } : P Unit) :=
  ⟨fun _ hst => ⟨hst, trivial⟩⟩

variable {field t span raw} {fuel : Nat} [hpieces : ∀ depth r, Tame φ env (pieces field t span raw fuel depth r)]

theorem tame_replacement_succ (depth : Nat) (r : Rest) :
    Tame φ env (replacement field t span raw (fuel + 1) depth r) := by
  rw [replacement]
  extract_lets body
  split
  case isTrue => exact .refuse
  split
  case h_1 => infer_instance
  extract_lets source after parsed filled
  have hparsed (u : Unit) : Tame φ env (parsed u) := by
    unfold parsed
    split
    case h_1 => exact ⟨fun _ _ => trivial⟩
    refine Keeps.then_ fun _ => ?_
    split
    extract_lets converted
    have hconverted (x : Option Char × Rest) : Tame φ env (converted x) := by
      unfold converted
      split
      extract_lets specified
      have hspecified (x : Option Expr × Rest) : Tame φ env (specified x) := by
        unfold specified
        split
        split <;> infer_instance
      split
      · exact .refuse
      · infer_instance
      · infer_instance
    split
    · split
      · infer_instance
      · exact .refuse
    · exact .refuse
    · infer_instance
  split
  case isTrue => exact .refuse
  unfold filled
  dsimp only
  split
  case isTrue => exact .refuse
  exact hparsed ()

theorem tame_pieces_succ [∀ depth r, Tame φ env (replacement field t span raw fuel depth r)] (depth : Nat) (r : Rest) :
    Tame φ env (pieces field t span raw (fuel + 1) depth r) := by
  rw [pieces]
  split
  case h_1 => infer_instance
  extract_lets rest warned
  have hwarned (u : Unit) : Tame φ env (warned u) := by
    unfold warned
    refine .then_ fun text => ?_
    extract_lets here
    split
    · infer_instance
    · split <;> infer_instance
  clear_value warned
  split <;> infer_instance

end Pieces

/-- A literal and its fields hold one another, in turns. -/
theorem tame_pieces_replacement (field : FieldParser) (t : Token) (span : Span) (raw : Bool) (fuel : Nat) :
    (∀ depth r, Tame φ env (pieces field t span raw fuel depth r)) ∧
      ∀ depth r, Tame φ env (replacement field t span raw fuel depth r) := by
  induction fuel with
  | zero =>
    constructor
    · intro depth r
      rw [pieces]
      infer_instance
    · intro depth r
      rw [replacement]
      infer_instance
  | succ fuel ih =>
    obtain ⟨hp, hr⟩ := ih
    exact ⟨tame_pieces_succ, tame_replacement_succ⟩

instance (field : FieldParser) (t : Token) (span : Span) (raw : Bool) (fuel depth : Nat) (r : Rest) :
    Tame φ env (pieces field t span raw fuel depth r) := (tame_pieces_replacement field t span raw fuel).1 depth r

instance (field : FieldParser) (span : Span) (before : Option Literals) (token : Token × List Char) :
    Tame φ env (addLiteral field span before token) := by
  unfold addLiteral
  extract_lets added
  have hadded (value : List UInt8) : Tame φ env (added value) := by
    unfold added
    split <;> infer_instance
  split
  extract_lets s valued joined quotes place
  split
  · have hvalued (u : Unit) : Tame φ env (valued u) := by
      unfold valued
      split
      · infer_instance
      · split
        · exact .refuse
        · extract_lets warned
          split <;> infer_instance
    split
    · exact .refuse
    · exact hvalued ()
  · have hjoined (found : List Piece) : Tame φ env (joined found) := by
      unfold joined
      split <;> infer_instance
    split <;> infer_instance

instance {α β : Type} {f : β → α → P β} [hf : ∀ b a, Tame φ env (f b a)] (as : List α) (b : β) :
    Tame φ env (as.foldlM f b) := by
  induction as generalizing b with
  | nil => exact .pure trivial
  | cons a as ih => exact (hf b a).bind fun b' _ => ih b'

instance (field : FieldParser) : Tame φ env (strings field) := by
  unfold strings
  refine .then_ fun first => .then_ fun more => ?_
  extract_lets last span
  refine .then_ fun value => ?_
  split <;> infer_instance

variable {g : Grammar} [∀ r, Tame φ env (g r)]

instance : Tame φ env comma := inferInstanceAs (Tame φ env (symbol _))

instance : Tame φ env colon := inferInstanceAs (Tame φ env (symbol _))

instance : Tame φ env nameExpr := by
  unfold nameExpr
  infer_instance

/-! ## Operators -/

instance {operand : P Expr} {op : P BinaryOp} [Tame φ env operand] [Tame φ env op] :
    Tame φ env (leftAssociative operand op) := by
  unfold leftAssociative
  infer_instance

instance (table : List (Sym × BinaryOp)) : Tame φ env (operator table) := inferInstanceAs (Tame φ env (accept _))

instance : Tame φ env (power g) := by
  unfold power
  refine .then_ fun a => .then_ fun base => .then_ fun o => ?_
  split <;> infer_instance

instance : Tame φ env (factor g) := by
  unfold factor
  infer_instance

instance : Tame φ env (bitwiseOr g) := by
  unfold bitwiseOr bitwiseXor bitwiseAnd shift sum term
  infer_instance

instance : Tame φ env inequality := by
  unfold inequality
  infer_instance

instance : Tame φ env compareOp := by
  unfold compareOp
  infer_instance

instance : Tame φ env (comparison g) := by
  unfold comparison
  infer_instance

instance : Tame φ env (inversion g) := by
  unfold inversion
  infer_instance

instance (k : Keyword) (conjunction : Bool) {operand : P Expr} [Tame φ env operand] :
    Tame φ env (booleanChain k conjunction operand) := by
  unfold booleanChain
  infer_instance

instance : Tame φ env (conjunction g) := by
  unfold conjunction
  infer_instance

instance : Tame φ env (disjunction g) := by
  unfold disjunction
  infer_instance

section Explained

variable [Fact (env.explain = false)]

instance : Tame φ env (plainExpression g) := by
  unfold plainExpression
  infer_instance

instance : Tame φ env (starExpression g) := by
  unfold starExpression
  infer_instance

instance {item : P Expr} [Tame φ env item] : Tame φ env (tupleOr item) := by
  unfold tupleOr
  infer_instance

instance : Tame φ env (expression g) := by
  unfold expression
  infer_instance

instance : Tame φ env (starExpressions g) := by
  unfold starExpressions
  infer_instance

instance : Tame φ env (starNamedExpression g) := by
  unfold starNamedExpression
  infer_instance

instance : Tame φ env (starNamedExpressions g) := by
  unfold starNamedExpressions
  infer_instance

instance : Tame φ env (assignmentExpression g) := by
  unfold assignmentExpression
  infer_instance

instance : Tame φ env (namedExpression g) := by
  unfold namedExpression
  infer_instance

instance : Tame φ env (yieldExpr g) := by
  unfold yieldExpr
  infer_instance

/-! ## Targets -/

instance : Tame φ env targetContinues := by
  unfold targetContinues
  infer_instance

instance : Tame φ env (slice g) := by
  unfold slice
  infer_instance

instance : Tame φ env (starredExpression g) := by
  unfold starredExpression
  infer_instance

instance : Tame φ env (slices g) := by
  unfold slices
  infer_instance

instance : Tame φ env (starTargets g) := by
  unfold starTargets
  infer_instance

instance {targets : P Expr} [Tame φ env targets] : Tame φ env (clause g targets) := by
  unfold clause
  dsimp only
  infer_instance

instance : Tame φ env (clauses g) := by
  unfold clauses
  infer_instance

instance : Tame φ env (memberTarget g) := by
  unfold memberTarget
  infer_instance

instance : Tame φ env (starAtom g) := by
  unfold starAtom starTargetsTuple starTargetsList
  infer_instance

instance : Tame φ env (targetWithStarAtom g) := by
  unfold targetWithStarAtom
  infer_instance

instance : Tame φ env (starTarget g) := by
  unfold starTarget
  infer_instance

instance : Tame φ env (singleTarget g) := by
  unfold singleTarget
  infer_instance

instance : Tame φ env (deleteTargets g) := by
  unfold deleteTargets
  infer_instance

instance : Tame φ env (deleteTarget g) := by
  unfold deleteTarget
  infer_instance

/-! ## Displays and comprehensions -/

instance : Tame φ env (list g) := by
  unfold list
  infer_instance

instance : Tame φ env (tuple g) := by
  unfold tuple
  infer_instance

instance : Tame φ env (set g) := by
  unfold set
  infer_instance

instance : Tame φ env (keyValue g) := by
  unfold keyValue
  infer_instance

instance : Tame φ env (dictItem g) := by
  unfold dictItem
  infer_instance

instance : Tame φ env (dictItems g) := by
  unfold dictItems
  infer_instance

section Rejected

/-! These complaints about a display are made in the first run already, and are no answers. -/

variable {α : Type} {ψ : α → Prop}

instance : Keeps φ env (explainDictValue g : P α) ψ := by
  unfold explainDictValue
  infer_instance

instance : Keeps φ env (explainKeyValue g : P α) ψ := by
  unfold explainKeyValue
  infer_instance

instance : Keeps φ env (explainDictItems g : P α) ψ := by
  unfold explainDictItems
  infer_instance

end Rejected

instance : Tame φ env (dict g) := by
  unfold dict
  infer_instance

instance : Tame φ env (listComprehension g) := by
  unfold listComprehension
  infer_instance

instance : Tame φ env (setComprehension g) := by
  unfold setComprehension
  infer_instance

instance : Tame φ env (dictComprehension g) := by
  unfold dictComprehension
  infer_instance

instance : Tame φ env (unassigned g) := by
  unfold unassigned
  infer_instance

instance : Tame φ env (generator g) := by
  unfold generator
  infer_instance

instance : Tame φ env (group g) := by
  unfold group
  infer_instance

/-! ## Atoms, calls and members -/

instance : Tame φ env number := inferInstanceAs (Tame φ env (accept _))

instance : Tame φ env checkedNumber := by
  unfold checkedNumber
  refine .then_ fun t => ?_
  split <;> infer_instance

instance (k : Keyword) (c : Constant) : Tame φ env (constantWord k c) := by
  unfold constantWord
  infer_instance

instance : Tame φ env (atom g) := by
  unfold atom
  refine .then_ fun t => ?_
  split <;> infer_instance

instance (a : Place) (e : Expr) : Tame φ env (trailer g a e) := by
  have hcall (args : Option Arguments) (sp : Span) : Tame φ env (match args with
      | some args => return .call sp e args.positional args.keywords
      | none => return .call sp e [] [] : P Expr) := by
    cases args <;> infer_instance
  unfold trailer
  infer_instance

instance : Tame φ env (primary g) := by
  unfold primary
  infer_instance

instance : Tame φ env (targetPrimary g) := by
  unfold targetPrimary
  infer_instance

instance : Tame φ env (awaitPrimary g) := by
  unfold awaitPrimary
  infer_instance

/-! ## Arguments of calls -/

instance : Tame φ env (namedArg g) := by
  unfold namedArg
  infer_instance

instance : Tame φ env (keywordOrStarred g) := by
  unfold keywordOrStarred
  infer_instance

instance : Tame φ env (keywordOrDoubleStarred g) := by
  unfold keywordOrDoubleStarred
  infer_instance

instance : Tame φ env (lateArgs g) := by
  unfold lateArgs
  infer_instance

instance : Tame φ env (args g) := by
  unfold args
  infer_instance

instance : Tame φ env (arguments g) := by
  unfold arguments
  infer_instance

/-! ## Named expressions -/

instance : Tame φ env (annotatedDisplay g) := by
  unfold annotatedDisplay
  infer_instance

/-! ## Parameters -/

section Parameters

variable {s : Style} [Tame φ env s.param] [Tame φ env s.starParam]

instance : Tame φ env (paramEnd s) := by
  unfold paramEnd
  infer_instance

instance : Tame φ env (defaultValue g s) := by
  unfold defaultValue
  infer_instance

instance : Tame φ env (plainParam s) := by
  unfold plainParam
  infer_instance

instance : Tame φ env (starredParam s) := by
  unfold starredParam
  infer_instance

instance : Tame φ env (defaultedParam g s) := by
  unfold defaultedParam
  infer_instance

instance : Tame φ env (anyParam g s) := by
  unfold anyParam
  infer_instance

instance : Tame φ env (slashPlain s) := by
  unfold slashPlain slash
  infer_instance

instance : Tame φ env (slashDefaulted g s) := by
  unfold slashDefaulted slash
  infer_instance

instance : Tame φ env (keywordRest s) := by
  unfold keywordRest
  infer_instance

instance : Tame φ env (starTail g s) := by
  unfold starTail
  infer_instance

instance : Tame φ env (params g s) := by
  unfold params parameters
  dsimp only
  infer_instance

end Parameters

instance : Tame φ env (defStyle g).param := by
  unfold defStyle annotatedParam
  infer_instance

instance : Tame φ env (defStyle g).starParam := by
  unfold defStyle
  infer_instance

instance : Tame φ env lambdaStyle.param := by
  unfold lambdaStyle
  infer_instance

instance : Tame φ env lambdaStyle.starParam := inferInstanceAs (Tame φ env P.fail)

/-! ## Patterns -/

instance : Tame φ env signedNumber := by
  unfold signedNumber
  infer_instance

instance : Tame φ env complexNumber := by
  unfold complexNumber
  refine Keeps.spanned (.then_ fun real => .then_ fun op => .then_ fun unit => ?_)
  split
  · exact .pure fun _ => trivial
  · infer_instance

instance (members : Bool) : Tame φ env (dottedValue members) := by
  unfold dottedValue
  dsimp only
  infer_instance

instance : Tame φ env (literalValue g) := by
  unfold literalValue loneNumber
  infer_instance

instance : Tame φ env (literalKey g) := by
  unfold literalKey
  infer_instance

instance : Tame φ env (literalPattern g) := by
  unfold literalPattern
  infer_instance

instance : Tame φ env captureTarget := by
  unfold captureTarget
  infer_instance

instance : Tame φ env (maybeStarPattern g) := by
  unfold maybeStarPattern starPattern
  infer_instance

instance : Tame φ env (maybeSequence g) := by
  unfold maybeSequence
  infer_instance

instance : Tame φ env (openSequence g) := by
  unfold openSequence
  infer_instance

instance : Tame φ env (sequencePattern g) := by
  unfold sequencePattern
  infer_instance

instance : Tame φ env (keyPattern g) := by
  unfold keyPattern
  infer_instance

instance : Tame φ env (mappingPattern g) := by
  unfold mappingPattern restPattern
  infer_instance

instance : Tame φ env (classPattern g) := by
  unfold classPattern keywordPatterns keywordPattern positionalPatterns
  dsimp only
  infer_instance

instance : Tame φ env (closedPattern g) := by
  unfold closedPattern
  infer_instance

instance : Tame φ env (orPattern g) := by
  unfold orPattern
  refine .then_ fun a => .then_ fun ps => ?_
  split <;> infer_instance

instance : Tame φ env (pattern g) := by
  unfold pattern
  infer_instance

instance : Tame φ env (patterns g) := by
  unfold patterns
  infer_instance

end Explained

end Evalbox.Lang.P
