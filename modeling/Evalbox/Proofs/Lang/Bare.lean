import Evalbox.Lang.Parse
import Mathlib.Data.List.Forall2

/-!
# Syntax trees without their positions

`bare` forgets where the parts of a tree stand. Two trees are alike if nothing else tells them apart (`Kin`), and so
are other data in which trees or positions occur. `Alike` says so of two terms: there is an instance for every way to
build a tree, so that instance search compares two trees that were built alike from parts that are.
-/

namespace Evalbox.Lang

open Parse

/-! ## Trees -/

mutual

/-- An expression without its positions. -/
def Expr.bare : Expr → Expr
  | .boolean _ c vs => .boolean default c (Expr.bareAll vs)
  | .named _ t v => .named default t.bare v.bare
  | .binary _ o l r => .binary default o l.bare r.bare
  | .unary _ o e => .unary default o e.bare
  | .function _ p b => .function default p.bare b.bare
  | .conditional _ t b o => .conditional default t.bare b.bare o.bare
  | .dict _ is => .dict default (DictItem.bareAll is)
  | .set _ is => .set default (Expr.bareAll is)
  | .listOf _ i cs => .listOf default i.bare (Clause.bareAll cs)
  | .setOf _ i cs => .setOf default i.bare (Clause.bareAll cs)
  | .dictOf _ k v cs => .dictOf default k.bare v.bare (Clause.bareAll cs)
  | .generator _ i cs => .generator default i.bare (Clause.bareAll cs)
  | .await _ e => .await default e.bare
  | .yield _ v => .yield default (Expr.bareOpt v)
  | .yieldFrom _ e => .yieldFrom default e.bare
  | .compare _ l ops rs => .compare default l.bare ops (Expr.bareAll rs)
  | .call _ f as ks => .call default f.bare (Expr.bareAll as) (KeywordArg.bareAll ks)
  | .formatted _ v c s => .formatted default v.bare c (Expr.bareOpt s)
  | .joined _ ps => .joined default (Expr.bareAll ps)
  | .constant _ c => .constant default c
  | .attr _ e n => .attr default e.bare n
  | .subscript _ e i => .subscript default e.bare i.bare
  | .starred _ e => .starred default e.bare
  | .name _ n => .name default n
  | .list _ is => .list default (Expr.bareAll is)
  | .tuple _ is => .tuple default (Expr.bareAll is)
  | .slice _ l u s => .slice default (Expr.bareOpt l) (Expr.bareOpt u) (Expr.bareOpt s)

def Expr.bareAll : List Expr → List Expr
  | [] => []
  | e :: es => e.bare :: Expr.bareAll es

def Expr.bareOpt : Option Expr → Option Expr
  | none => none
  | some e => some e.bare

def Expr.bareOpts : List (Option Expr) → List (Option Expr)
  | [] => []
  | o :: os => Expr.bareOpt o :: Expr.bareOpts os

def KeywordArg.bare : KeywordArg → KeywordArg
  | .mk _ n v => .mk default n v.bare

def KeywordArg.bareAll : List KeywordArg → List KeywordArg
  | [] => []
  | k :: ks => k.bare :: KeywordArg.bareAll ks

def DictItem.bare : DictItem → DictItem
  | .pair k v => .pair k.bare v.bare
  | .spread v => .spread v.bare

def DictItem.bareAll : List DictItem → List DictItem
  | [] => []
  | i :: is => i.bare :: DictItem.bareAll is

def Clause.bare : Clause → Clause
  | .mk a t i cs => .mk a t.bare i.bare (Expr.bareAll cs)

def Clause.bareAll : List Clause → List Clause
  | [] => []
  | c :: cs => c.bare :: Clause.bareAll cs

def Param.bare : Param → Param
  | .mk _ n h => .mk default n (Expr.bareOpt h)

def Param.bareAll : List Param → List Param
  | [] => []
  | p :: ps => p.bare :: Param.bareAll ps

def Param.bareOpt : Option Param → Option Param
  | none => none
  | some p => some p.bare

/-- Parameters without their positions. -/
def Params.bare : Params → Params
  | .mk po p r ko kd kr d => .mk (Param.bareAll po) (Param.bareAll p) (Param.bareOpt r) (Param.bareAll ko)
      (Expr.bareOpts kd) (Param.bareOpt kr) (Expr.bareAll d)

end

mutual

/-- A pattern without its positions. -/
def Pattern.bare : Pattern → Pattern
  | .value _ v => .value default v.bare
  | .singleton _ c => .singleton default c
  | .sequence _ ps => .sequence default (Pattern.bareAll ps)
  | .mapping _ ks ps r => .mapping default (Expr.bareAll ks) (Pattern.bareAll ps) r
  | .classOf _ c ps ns nps => .classOf default c.bare (Pattern.bareAll ps) ns (Pattern.bareAll nps)
  | .star _ n => .star default n
  | .capture _ p n => .capture default (Pattern.bareOpt p) n
  | .either _ ps => .either default (Pattern.bareAll ps)

def Pattern.bareAll : List Pattern → List Pattern
  | [] => []
  | p :: ps => p.bare :: Pattern.bareAll ps

def Pattern.bareOpt : Option Pattern → Option Pattern
  | none => none
  | some p => some p.bare

end

/-- An imported name without its position. -/
def Alias.bare (a : Alias) : Alias := { a with span := default }

/-- A context without its positions. -/
def WithItem.bare (i : WithItem) : WithItem := ⟨i.context.bare, Expr.bareOpt i.target⟩

mutual

/-- A statement without its positions. -/
def Stmt.bare : Stmt → Stmt
  | .expr _ v => .expr default v.bare
  | .assign _ ts v => .assign default (Expr.bareAll ts) v.bare
  | .augmented _ t o v => .augmented default t.bare o v.bare
  | .annotated _ t h v s => .annotated default t.bare h.bare (Expr.bareOpt v) s
  | .ret _ v => .ret default (Expr.bareOpt v)
  | .delete _ ts => .delete default (Expr.bareAll ts)
  | .pass _ => .pass default
  | .breakLoop _ => .breakLoop default
  | .nextLoop _ => .nextLoop default
  | .globals _ ns => .globals default ns
  | .nonlocals _ ns => .nonlocals default ns
  | .importing _ as => .importing default (as.map Alias.bare)
  | .importFrom _ m as l => .importFrom default m (as.map Alias.bare) l
  | .raise _ e c => .raise default (Expr.bareOpt e) (Expr.bareOpt c)
  | .assert _ t m => .assert default t.bare (Expr.bareOpt m)
  | .ite _ t b o => .ite default t.bare (Stmt.bareAll b) (Stmt.bareAll o)
  | .whileLoop _ t b o => .whileLoop default t.bare (Stmt.bareAll b) (Stmt.bareAll o)
  | .forLoop _ a t i b o => .forLoop default a t.bare i.bare (Stmt.bareAll b) (Stmt.bareAll o)
  | .tryBlock _ b hs o f s =>
    .tryBlock default (Stmt.bareAll b) (Handler.bareAll hs) (Stmt.bareAll o) (Stmt.bareAll f) s
  | .withBlock _ a is b => .withBlock default a (is.map WithItem.bare) (Stmt.bareAll b)
  | .define _ a n ps b ds r => .define default a n ps.bare (Stmt.bareAll b) (Expr.bareAll ds) (Expr.bareOpt r)
  | .defineClass _ n bs ks b ds =>
    .defineClass default n (Expr.bareAll bs) (KeywordArg.bareAll ks) (Stmt.bareAll b) (Expr.bareAll ds)
  | .matchBlock _ e cs => .matchBlock default e.bare (MatchCase.bareAll cs)

def Stmt.bareAll : List Stmt → List Stmt
  | [] => []
  | s :: ss => s.bare :: Stmt.bareAll ss

def Handler.bare : Handler → Handler
  | .mk _ t n b => .mk default (Expr.bareOpt t) n (Stmt.bareAll b)

def Handler.bareAll : List Handler → List Handler
  | [] => []
  | h :: hs => h.bare :: Handler.bareAll hs

def MatchCase.bare : MatchCase → MatchCase
  | .mk p g b => .mk p.bare (Expr.bareOpt g) (Stmt.bareAll b)

def MatchCase.bareAll : List MatchCase → List MatchCase
  | [] => []
  | c :: cs => c.bare :: MatchCase.bareAll cs

end

/-! ## What it means to be alike -/

/-- When data of a type are the same but for positions. -/
class Kin (α : Type) where
  alike : α → α → Prop

/-- Two values that are alike, as instance search finds it. -/
class Alike {α : Type} [Kin α] (a b : α) : Prop where
  alike : Kin.alike a b

/-- Two values that are alike, as one. -/
structure Akin (α : Type) [Kin α] where
  left : α
  right : α
  alike : Kin.alike left right

section Kinds

variable {α β : Type} [Kin α] [Kin β]

instance : Kin (List α) := ⟨List.Forall₂ Kin.alike⟩

instance : Kin (Option α) := ⟨Option.Rel Kin.alike⟩

instance : Kin (α × β) := ⟨fun a b => Kin.alike a.1 b.1 ∧ Kin.alike a.2 b.2⟩

/-- A node that waits for its position is the same whatever that is. -/
instance : Kin (Span → α) := ⟨fun f g => ∀ s t, Kin.alike (f s) (g t)⟩

instance : Kin Span := ⟨fun _ _ => True⟩

instance : Kin Place := ⟨fun _ _ => True⟩

/-- Of a token the grammar sees the lexeme. -/
instance : Kin Token := ⟨fun t u => t.lexeme = u.lexeme⟩

instance : Kin Unit := ⟨Eq⟩

instance : Kin Bool := ⟨Eq⟩

instance : Kin Nat := ⟨Eq⟩

instance : Kin Char := ⟨Eq⟩

instance : Kin String := ⟨Eq⟩

instance : Kin UInt8 := ⟨Eq⟩

instance : Kin BinaryOp := ⟨Eq⟩

instance : Kin CompareOp := ⟨Eq⟩

instance : Kin Constant := ⟨Eq⟩

instance : Kin Expr := ⟨fun a b => a.bare = b.bare⟩

instance : Kin KeywordArg := ⟨fun a b => a.bare = b.bare⟩

instance : Kin DictItem := ⟨fun a b => a.bare = b.bare⟩

instance : Kin Clause := ⟨fun a b => a.bare = b.bare⟩

instance : Kin Param := ⟨fun a b => a.bare = b.bare⟩

instance : Kin Params := ⟨fun a b => a.bare = b.bare⟩

instance : Kin Pattern := ⟨fun a b => a.bare = b.bare⟩

instance : Kin Alias := ⟨fun a b => a.bare = b.bare⟩

instance : Kin WithItem := ⟨fun a b => a.bare = b.bare⟩

instance : Kin Stmt := ⟨fun a b => a.bare = b.bare⟩

instance : Kin Handler := ⟨fun a b => a.bare = b.bare⟩

instance : Kin MatchCase := ⟨fun a b => a.bare = b.bare⟩

instance : Kin Arguments := ⟨fun a b => Kin.alike a.positional b.positional ∧ Kin.alike a.keywords b.keywords⟩

end Kinds

namespace Alike

section Lists

/-! ## Lists, options and pairs -/

variable {α β : Type} [Kin α] [Kin β]

instance (x : Akin α) : Alike x.left x.right := ⟨x.alike⟩

instance : Alike ([] : List α) [] := ⟨.nil⟩

instance {a a' : α} {l l' : List α} [h : Alike a a'] [hl : Alike l l'] : Alike (a :: l) (a' :: l') :=
  ⟨.cons h.alike hl.alike⟩

instance {l l' r r' : List α} [h : Alike l l'] [h' : Alike r r'] : Alike (l ++ r) (l' ++ r') :=
  ⟨List.rel_append h.alike h'.alike⟩

instance {l l' : List (List α)} [h : Alike l l'] : Alike l.flatten l'.flatten := ⟨List.rel_flatten h.alike⟩

instance {f f' : α → β} {l l' : List α} [h : Alike l l'] [hf : ∀ x : Akin α, Alike (f x.left) (f' x.right)] :
    Alike (l.map f) (l'.map f') :=
  ⟨List.rel_map (fun a a' ha => (hf ⟨a, a', ha⟩).alike) h.alike⟩

instance {f f' : α → Option β} {l l' : List α} [h : Alike l l']
    [hf : ∀ x : Akin α, Alike (f x.left) (f' x.right)] : Alike (l.filterMap f) (l'.filterMap f') :=
  ⟨List.rel_filterMap (fun a a' ha => (hf ⟨a, a', ha⟩).alike) h.alike⟩

instance {l l' : List α} [h : Alike l l'] : Alike l.isEmpty l'.isEmpty where
  alike := by cases h.alike <;> rfl

instance : Alike (none : Option α) none := ⟨.none⟩

instance {a a' : α} [h : Alike a a'] : Alike (some a) (some a') := ⟨.some h.alike⟩

instance {o o' : Option α} {a a' : α} [h : Alike o o'] [ha : Alike a a'] : Alike (o.getD a) (o'.getD a') where
  alike := by
    cases h.alike with
    | none => exact ha.alike
    | some hab => exact hab

instance {o o' : Option α} [h : Alike o o'] : Alike o.toList o'.toList where
  alike := by
    cases h.alike with
    | none => exact .nil
    | some hab => exact .cons hab .nil

instance {f f' : α → β} {o o' : Option α} [h : Alike o o'] [hf : ∀ x : Akin α, Alike (f x.left) (f' x.right)] :
    Alike (o.map f) (o'.map f') where
  alike := by
    cases h.alike with
    | none => exact .none
    | some hab => exact .some (hf ⟨_, _, hab⟩).alike

instance {o o' : Option α} [h : Alike o o'] : Alike o.isNone o'.isNone where
  alike := by cases h.alike <;> rfl

instance {o o' : Option α} [h : Alike o o'] : Alike o.isSome o'.isSome where
  alike := by cases h.alike <;> rfl

instance {a a' : α} {b b' : β} [h : Alike a a'] [h' : Alike b b'] : Alike (a, b) (a', b') := ⟨⟨h.alike, h'.alike⟩⟩

instance {p p' : α × β} [h : Alike p p'] : Alike p.1 p'.1 := ⟨h.alike.1⟩

instance {p p' : α × β} [h : Alike p p'] : Alike p.2 p'.2 := ⟨h.alike.2⟩

instance {f f' : Span → α} [h : ∀ s t, Alike (f s) (f' t)] : Alike f f' := ⟨fun s t => (h s t).alike⟩

instance {b b' c c' : Bool} [h : Alike b b'] [h' : Alike c c'] : Alike (b && c) (b' && c') :=
  ⟨congrArg₂ and h.alike h'.alike⟩

instance {b b' c c' : Bool} [h : Alike b b'] [h' : Alike c c'] : Alike (b || c) (b' || c') :=
  ⟨congrArg₂ or h.alike h'.alike⟩

instance {c c' : Bool} {a a' b b' : α} [h : Alike c c'] [ha : Alike a a'] [hb : Alike b b'] :
    Alike (if c = true then a else b) (if c' = true then a' else b') := by
  obtain rfl : c = c' := h.alike
  cases c
  · exact hb
  · exact ha

end Lists

section Plain

/-! ## Data without positions, and positions -/

instance (s t : Span) : Alike s t := ⟨trivial⟩

instance (p q : Place) : Alike p q := ⟨trivial⟩

instance (u v : Unit) : Alike u v := ⟨rfl⟩

instance (b : Bool) : Alike b b := ⟨rfl⟩

instance (n : Nat) : Alike n n := ⟨rfl⟩

instance (c : Char) : Alike c c := ⟨rfl⟩

instance (s : String) : Alike s s := ⟨rfl⟩

instance (o : BinaryOp) : Alike o o := ⟨rfl⟩

instance (o : CompareOp) : Alike o o := ⟨rfl⟩

instance (c : Constant) : Alike c c := ⟨rfl⟩

instance {f : Nat → Nat → Nat} {n : Nat} {l l' : List Nat} [h : Alike l l'] : Alike (l.foldl f n) (l'.foldl f n) :=
  ⟨congrArg (List.foldl f n) (List.forall₂_eq_eq_eq ▸ h.alike : l = l')⟩

instance {s : String} {l l' : List String} [h : Alike l l'] : Alike (s.intercalate l) (s.intercalate l') :=
  ⟨congrArg s.intercalate (List.forall₂_eq_eq_eq ▸ h.alike : l = l')⟩

end Plain

section Bare

/-! ## Lists and options of trees -/

variable {α : Type} {bare : α → α}

/-- Lists are bare if their entries are. -/
theorem all_eq {bareAll : List α → List α} (hcons : ∀ a l, bareAll (a :: l) = bare a :: bareAll l) {l l' : List α}
    (h : List.Forall₂ (fun a b => bare a = bare b) l l') : bareAll l = bareAll l' := by
  induction h with
  | nil => rfl
  | cons h _ ih => rw [hcons, hcons, h, ih]

theorem opt_eq {bareOpt : Option α → Option α} (hsome : ∀ a, bareOpt (some a) = some (bare a)) {o o' : Option α}
    (h : Option.Rel (fun a b => bare a = bare b) o o') : bareOpt o = bareOpt o' := by
  cases h with
  | none => rfl
  | some h => rw [hsome, hsome, h]

theorem exprs {l l' : List Expr} (h : Alike l l') : Expr.bareAll l = Expr.bareAll l' :=
  all_eq (fun _ _ => rfl) h.alike

theorem expr? {o o' : Option Expr} (h : Alike o o') : Expr.bareOpt o = Expr.bareOpt o' :=
  opt_eq (fun _ => rfl) h.alike

theorem exprs? {l l' : List (Option Expr)} (h : Alike l l') : Expr.bareOpts l = Expr.bareOpts l' := by
  obtain ⟨h⟩ := h
  induction h with
  | nil => rfl
  | cons h _ ih => exact congrArg₂ List.cons (expr? ⟨h⟩) ih

theorem keywords {l l' : List KeywordArg} (h : Alike l l') : KeywordArg.bareAll l = KeywordArg.bareAll l' :=
  all_eq (fun _ _ => rfl) h.alike

theorem dictItems {l l' : List DictItem} (h : Alike l l') : DictItem.bareAll l = DictItem.bareAll l' :=
  all_eq (fun _ _ => rfl) h.alike

theorem clauses {l l' : List Clause} (h : Alike l l') : Clause.bareAll l = Clause.bareAll l' :=
  all_eq (fun _ _ => rfl) h.alike

theorem params {l l' : List Param} (h : Alike l l') : Param.bareAll l = Param.bareAll l' :=
  all_eq (fun _ _ => rfl) h.alike

theorem param? {o o' : Option Param} (h : Alike o o') : Param.bareOpt o = Param.bareOpt o' :=
  opt_eq (fun _ => rfl) h.alike

theorem patterns {l l' : List Pattern} (h : Alike l l') : Pattern.bareAll l = Pattern.bareAll l' :=
  all_eq (fun _ _ => rfl) h.alike

theorem pattern? {o o' : Option Pattern} (h : Alike o o') : Pattern.bareOpt o = Pattern.bareOpt o' :=
  opt_eq (fun _ => rfl) h.alike

theorem stmts {l l' : List Stmt} (h : Alike l l') : Stmt.bareAll l = Stmt.bareAll l' :=
  all_eq (fun _ _ => rfl) h.alike

theorem handlers {l l' : List Handler} (h : Alike l l') : Handler.bareAll l = Handler.bareAll l' :=
  all_eq (fun _ _ => rfl) h.alike

theorem matchCases {l l' : List MatchCase} (h : Alike l l') : MatchCase.bareAll l = MatchCase.bareAll l' :=
  all_eq (fun _ _ => rfl) h.alike

/-- Lists of plain data are alike only if they are the same. -/
theorem eq_of_plain {l l' : List α} (h : List.Forall₂ Eq l l') : l = l' := List.forall₂_eq_eq_eq ▸ h

theorem opt_eq_of_plain {o o' : Option α} (h : Option.Rel Eq o o') : o = o' := by
  cases h with
  | none => rfl
  | some h => rw [h]

theorem aliases {l l' : List Alias} (h : Alike l l') : l.map Alias.bare = l'.map Alias.bare :=
  all_eq (fun _ _ => rfl) h.alike

theorem withItems {l l' : List WithItem} (h : Alike l l') : l.map WithItem.bare = l'.map WithItem.bare :=
  all_eq (fun _ _ => rfl) h.alike

theorem words {l l' : List String} (h : Alike l l') : l = l' := eq_of_plain h.alike

theorem word? {o o' : Option String} (h : Alike o o') : o = o' := opt_eq_of_plain h.alike

theorem expr {a b : Expr} (h : Alike a b) : a.bare = b.bare := h.alike

theorem paramList {a b : Params} (h : Alike a b) : a.bare = b.bare := h.alike

theorem pattern {a b : Pattern} (h : Alike a b) : a.bare = b.bare := h.alike

theorem eq_of_nat {m n : Nat} (h : Alike m n) : m = n := h.alike

theorem eq_of_string {m n : String} (h : Alike m n) : m = n := h.alike

theorem eq_of_op {o p : BinaryOp} (h : Alike o p) : o = p := h.alike

end Bare

section Expressions

/-! ## Expressions -/

variable {s t : Span} {a a' b b' c c' : Expr} {l l' : List Expr} {o o' : Option Expr} {cs cs' : List Clause}
  {n n' : String}

instance {k : Bool} [h : Alike l l'] : Alike (Expr.boolean s k l) (.boolean t k l') :=
  ⟨congrArg (Expr.boolean default k) h.exprs⟩

instance [h : Alike a a'] [h' : Alike b b'] : Alike (Expr.named s a b) (.named t a' b') :=
  ⟨congrArg₂ (Expr.named default) h.alike h'.alike⟩

instance {k k' : BinaryOp} [hk : Alike k k'] [h : Alike a a'] [h' : Alike b b'] :
    Alike (Expr.binary s k a b) (.binary t k' a' b') :=
  ⟨by simp only [Kin.alike, Expr.bare, hk.eq_of_op, h.expr, h'.expr]⟩

instance {k : UnaryOp} [h : Alike a a'] : Alike (Expr.unary s k a) (.unary t k a') :=
  ⟨congrArg (Expr.unary default k) h.alike⟩

instance {p p' : Params} [h : Alike p p'] [h' : Alike a a'] : Alike (Expr.function s p a) (.function t p' a') :=
  ⟨congrArg₂ (Expr.function default) h.alike h'.alike⟩

instance [h : Alike a a'] [h' : Alike b b'] [h'' : Alike c c'] :
    Alike (Expr.conditional s a b c) (.conditional t a' b' c') :=
  ⟨by simp only [Kin.alike, Expr.bare, h.expr, h'.expr, h''.expr]⟩

instance {is is' : List DictItem} [h : Alike is is'] : Alike (Expr.dict s is) (.dict t is') :=
  ⟨congrArg (Expr.dict default) h.dictItems⟩

instance [h : Alike l l'] : Alike (Expr.set s l) (.set t l') := ⟨congrArg (Expr.set default) h.exprs⟩

instance [h : Alike a a'] [h' : Alike cs cs'] : Alike (Expr.listOf s a cs) (.listOf t a' cs') :=
  ⟨congrArg₂ (Expr.listOf default) h.alike h'.clauses⟩

instance [h : Alike a a'] [h' : Alike cs cs'] : Alike (Expr.setOf s a cs) (.setOf t a' cs') :=
  ⟨congrArg₂ (Expr.setOf default) h.alike h'.clauses⟩

instance [h : Alike a a'] [h' : Alike b b'] [h'' : Alike cs cs'] :
    Alike (Expr.dictOf s a b cs) (.dictOf t a' b' cs') :=
  ⟨by simp only [Kin.alike, Expr.bare, h.expr, h'.expr, h''.clauses]⟩

instance [h : Alike a a'] [h' : Alike cs cs'] : Alike (Expr.generator s a cs) (.generator t a' cs') :=
  ⟨congrArg₂ (Expr.generator default) h.alike h'.clauses⟩

instance [h : Alike a a'] : Alike (Expr.await s a) (.await t a') := ⟨congrArg (Expr.await default) h.alike⟩

instance [h : Alike o o'] : Alike (Expr.yield s o) (.yield t o') := ⟨congrArg (Expr.yield default) h.expr?⟩

instance [h : Alike a a'] : Alike (Expr.yieldFrom s a) (.yieldFrom t a') :=
  ⟨congrArg (Expr.yieldFrom default) h.alike⟩

instance {ks ks' : List CompareOp} [h : Alike a a'] [hk : Alike ks ks'] [h' : Alike l l'] :
    Alike (Expr.compare s a ks l) (.compare t a' ks' l') :=
  ⟨by simp only [Kin.alike, Expr.bare, h.expr, eq_of_plain hk.alike, h'.exprs]⟩

instance {ks ks' : List KeywordArg} [h : Alike a a'] [h' : Alike l l'] [hk : Alike ks ks'] :
    Alike (Expr.call s a l ks) (.call t a' l' ks') :=
  ⟨by simp only [Kin.alike, Expr.bare, h.expr, h'.exprs, hk.keywords]⟩

instance {k k' : Option Char} [h : Alike a a'] [hk : Alike k k'] [h' : Alike o o'] :
    Alike (Expr.formatted s a k o) (.formatted t a' k' o') :=
  ⟨by simp only [Kin.alike, Expr.bare, h.expr, opt_eq_of_plain hk.alike, h'.expr?]⟩

instance [h : Alike l l'] : Alike (Expr.joined s l) (.joined t l') := ⟨congrArg (Expr.joined default) h.exprs⟩

instance {k : Constant} : Alike (Expr.constant s k) (.constant t k) := ⟨rfl⟩

instance [h : Alike a a'] [hn : Alike n n'] : Alike (Expr.attr s a n) (.attr t a' n') :=
  ⟨congrArg₂ (Expr.attr default) h.alike hn.alike⟩

instance [h : Alike a a'] [h' : Alike b b'] : Alike (Expr.subscript s a b) (.subscript t a' b') :=
  ⟨congrArg₂ (Expr.subscript default) h.alike h'.alike⟩

instance [h : Alike a a'] : Alike (Expr.starred s a) (.starred t a') := ⟨congrArg (Expr.starred default) h.alike⟩

instance [hn : Alike n n'] : Alike (Expr.name s n) (.name t n') := ⟨congrArg (Expr.name default) hn.alike⟩

instance [h : Alike l l'] : Alike (Expr.list s l) (.list t l') := ⟨congrArg (Expr.list default) h.exprs⟩

instance [h : Alike l l'] : Alike (Expr.tuple s l) (.tuple t l') := ⟨congrArg (Expr.tuple default) h.exprs⟩

instance {u u' v v' : Option Expr} [h : Alike o o'] [h' : Alike u u'] [h'' : Alike v v'] :
    Alike (Expr.slice s o u v) (.slice t o' u' v') :=
  ⟨by simp only [Kin.alike, Expr.bare, h.expr?, h'.expr?, h''.expr?]⟩

instance {m m' : Option String} [hm : Alike m m'] [h : Alike a a'] :
    Alike (KeywordArg.mk s m a) (.mk t m' a') :=
  ⟨congrArg₂ (KeywordArg.mk default) hm.word? h.alike⟩

instance [h : Alike a a'] [h' : Alike b b'] : Alike (DictItem.pair a b) (.pair a' b') :=
  ⟨congrArg₂ DictItem.pair h.alike h'.alike⟩

instance [h : Alike a a'] : Alike (DictItem.spread a) (.spread a') := ⟨congrArg DictItem.spread h.alike⟩

instance {k : Bool} [h : Alike a a'] [h' : Alike b b'] [h'' : Alike l l'] :
    Alike (Clause.mk k a b l) (.mk k a' b' l') :=
  ⟨by simp only [Kin.alike, Clause.bare, h.expr, h'.expr, h''.exprs]⟩

instance [hn : Alike n n'] [h : Alike o o'] : Alike (Param.mk s n o) (.mk t n' o') :=
  ⟨congrArg₂ (Param.mk default) hn.alike h.expr?⟩

instance : Alike Params.empty Params.empty := ⟨rfl⟩

instance {po po' p p' ko ko' : List Param} {r r' kr kr' : Option Param} {kd kd' : List (Option Expr)}
    [hpo : Alike po po'] [hp : Alike p p'] [hr : Alike r r'] [hko : Alike ko ko'] [hkd : Alike kd kd']
    [hkr : Alike kr kr'] [h : Alike l l'] : Alike (Params.mk po p r ko kd kr l) (.mk po' p' r' ko' kd' kr' l') :=
  ⟨by simp only [Kin.alike, Params.bare, hpo.params, hp.params, hr.param?, hko.params, hkd.exprs?, hkr.param?,
    h.exprs]⟩

instance {p p' : Arguments} [h : Alike p p'] : Alike p.positional p'.positional := ⟨h.alike.1⟩

instance {p p' : Arguments} [h : Alike p p'] : Alike p.keywords p'.keywords := ⟨h.alike.2⟩

instance {ks ks' : List KeywordArg} [h : Alike l l'] [hk : Alike ks ks'] :
    Alike (Arguments.mk s l ks) ⟨t, l', ks'⟩ := ⟨⟨h.alike, hk.alike⟩⟩

end Expressions

section Patterns

/-! ## Patterns -/

variable {s t : Span} {e e' : Expr} {p p' : Pattern} {l l' k k' : List Pattern} {o o' : Option Pattern}
  {n n' : Option String}

instance [h : Alike e e'] : Alike (Pattern.value s e) (.value t e') := ⟨congrArg (Pattern.value default) h.alike⟩

instance {c : Constant} : Alike (Pattern.singleton s c) (.singleton t c) := ⟨rfl⟩

instance [h : Alike l l'] : Alike (Pattern.sequence s l) (.sequence t l') :=
  ⟨congrArg (Pattern.sequence default) h.patterns⟩

instance {es es' : List Expr} [he : Alike es es'] [h : Alike l l'] [hn : Alike n n'] :
    Alike (Pattern.mapping s es l n) (.mapping t es' l' n') :=
  ⟨by simp only [Kin.alike, Pattern.bare, he.exprs, h.patterns, hn.word?]⟩

instance {ns ns' : List String} [he : Alike e e'] [h : Alike l l'] [hn : Alike ns ns'] [hk : Alike k k'] :
    Alike (Pattern.classOf s e l ns k) (.classOf t e' l' ns' k') :=
  ⟨by simp only [Kin.alike, Pattern.bare, he.expr, h.patterns, hn.words, hk.patterns]⟩

instance [h : Alike n n'] : Alike (Pattern.star s n) (.star t n') := ⟨congrArg (Pattern.star default) h.word?⟩

instance [h : Alike o o'] [hn : Alike n n'] : Alike (Pattern.capture s o n) (.capture t o' n') :=
  ⟨congrArg₂ (Pattern.capture default) h.pattern? hn.word?⟩

instance [h : Alike l l'] : Alike (Pattern.either s l) (.either t l') :=
  ⟨congrArg (Pattern.either default) h.patterns⟩

end Patterns

section Statements

/-! ## Statements -/

variable {s t : Span} {a a' b b' c c' : Expr} {l l' : List Expr} {o o' u u' : Option Expr} {ss ss' rs rs' qs qs' : List Stmt}
  {hs hs' : List Handler} {n n' : String} {k k' : Option String} {ns ns' : List String} {as as' : List Alias}

instance [hn : Alike n n'] [h : Alike k k'] : Alike (Alias.mk s n k) ⟨t, n', k'⟩ :=
  ⟨by simp only [Kin.alike, Alias.bare, hn.eq_of_string, h.word?]⟩

instance [h : Alike a a'] [h' : Alike o o'] : Alike (WithItem.mk a o) ⟨a', o'⟩ :=
  ⟨congrArg₂ WithItem.mk h.alike h'.expr?⟩

instance [h : Alike a a'] : Alike (Stmt.expr s a) (.expr t a') := ⟨congrArg (Stmt.expr default) h.alike⟩

instance [h : Alike l l'] [h' : Alike a a'] : Alike (Stmt.assign s l a) (.assign t l' a') :=
  ⟨congrArg₂ (Stmt.assign default) h.exprs h'.alike⟩

instance {p p' : BinaryOp} [h : Alike a a'] [hp : Alike p p'] [h' : Alike b b'] :
    Alike (Stmt.augmented s a p b) (.augmented t a' p' b') :=
  ⟨by simp only [Kin.alike, Stmt.bare, h.expr, hp.eq_of_op, h'.expr]⟩

instance {simple : Bool} [h : Alike a a'] [h' : Alike b b'] [ho : Alike o o'] :
    Alike (Stmt.annotated s a b o simple) (.annotated t a' b' o' simple) :=
  ⟨by simp only [Kin.alike, Stmt.bare, h.expr, h'.expr, ho.expr?]⟩

instance [h : Alike o o'] : Alike (Stmt.ret s o) (.ret t o') := ⟨congrArg (Stmt.ret default) h.expr?⟩

instance [h : Alike l l'] : Alike (Stmt.delete s l) (.delete t l') := ⟨congrArg (Stmt.delete default) h.exprs⟩

instance : Alike (Stmt.pass s) (.pass t) := ⟨rfl⟩

instance : Alike (Stmt.breakLoop s) (.breakLoop t) := ⟨rfl⟩

instance : Alike (Stmt.nextLoop s) (.nextLoop t) := ⟨rfl⟩

instance [h : Alike ns ns'] : Alike (Stmt.globals s ns) (.globals t ns') :=
  ⟨congrArg (Stmt.globals default) h.words⟩

instance [h : Alike ns ns'] : Alike (Stmt.nonlocals s ns) (.nonlocals t ns') :=
  ⟨congrArg (Stmt.nonlocals default) h.words⟩

instance [h : Alike as as'] : Alike (Stmt.importing s as) (.importing t as') :=
  ⟨congrArg (Stmt.importing default) h.aliases⟩

instance {level level' : Nat} [hk : Alike k k'] [h : Alike as as'] [hl : Alike level level'] :
    Alike (Stmt.importFrom s k as level) (.importFrom t k' as' level') :=
  ⟨by simp only [Kin.alike, Stmt.bare, hk.word?, h.aliases, hl.eq_of_nat]⟩

instance [h : Alike o o'] [h' : Alike u u'] : Alike (Stmt.raise s o u) (.raise t o' u') :=
  ⟨congrArg₂ (Stmt.raise default) h.expr? h'.expr?⟩

instance [h : Alike a a'] [h' : Alike o o'] : Alike (Stmt.assert s a o) (.assert t a' o') :=
  ⟨congrArg₂ (Stmt.assert default) h.alike h'.expr?⟩

instance [h : Alike a a'] [h' : Alike ss ss'] [h'' : Alike rs rs'] :
    Alike (Stmt.ite s a ss rs) (.ite t a' ss' rs') :=
  ⟨by simp only [Kin.alike, Stmt.bare, h.expr, h'.stmts, h''.stmts]⟩

instance [h : Alike a a'] [h' : Alike ss ss'] [h'' : Alike rs rs'] :
    Alike (Stmt.whileLoop s a ss rs) (.whileLoop t a' ss' rs') :=
  ⟨by simp only [Kin.alike, Stmt.bare, h.expr, h'.stmts, h''.stmts]⟩

instance {isAsync : Bool} [h : Alike a a'] [hb : Alike b b'] [h' : Alike ss ss'] [h'' : Alike rs rs'] :
    Alike (Stmt.forLoop s isAsync a b ss rs) (.forLoop t isAsync a' b' ss' rs') :=
  ⟨by simp only [Kin.alike, Stmt.bare, h.expr, hb.expr, h'.stmts, h''.stmts]⟩

instance {star : Bool} [h : Alike ss ss'] [hh : Alike hs hs'] [h' : Alike rs rs'] [h'' : Alike qs qs'] :
    Alike (Stmt.tryBlock s ss hs rs qs star) (.tryBlock t ss' hs' rs' qs' star) :=
  ⟨by simp only [Kin.alike, Stmt.bare, h.stmts, hh.handlers, h'.stmts, h''.stmts]⟩

instance {isAsync : Bool} {is is' : List WithItem} [h : Alike is is'] [h' : Alike ss ss'] :
    Alike (Stmt.withBlock s isAsync is ss) (.withBlock t isAsync is' ss') :=
  ⟨by simp only [Kin.alike, Stmt.bare, h.withItems, h'.stmts]⟩

instance {isAsync : Bool} {p p' : Params} [hn : Alike n n'] [hp : Alike p p'] [h : Alike ss ss'] [h' : Alike l l']
    [ho : Alike o o'] : Alike (Stmt.define s isAsync n p ss l o) (.define t isAsync n' p' ss' l' o') :=
  ⟨by simp only [Kin.alike, Stmt.bare, hn.eq_of_string, hp.paramList, h.stmts, h'.exprs, ho.expr?]⟩

instance {ks ks' : List KeywordArg} {r r' : List Expr} [hn : Alike n n'] [h : Alike l l'] [hk : Alike ks ks']
    [hss : Alike ss ss'] [hr : Alike r r'] : Alike (Stmt.defineClass s n l ks ss r) (.defineClass t n' l' ks' ss' r') :=
  ⟨by simp only [Kin.alike, Stmt.bare, hn.eq_of_string, h.exprs, hk.keywords, hss.stmts, hr.exprs]⟩

instance {cs cs' : List MatchCase} [h : Alike a a'] [h' : Alike cs cs'] :
    Alike (Stmt.matchBlock s a cs) (.matchBlock t a' cs') :=
  ⟨congrArg₂ (Stmt.matchBlock default) h.alike h'.matchCases⟩

instance [h : Alike o o'] [hk : Alike k k'] [h' : Alike ss ss'] : Alike (Handler.mk s o k ss) (.mk t o' k' ss') :=
  ⟨by simp only [Kin.alike, Handler.bare, h.expr?, hk.word?, h'.stmts]⟩

instance {p p' : Pattern} [hp : Alike p p'] [h : Alike o o'] [h' : Alike ss ss'] :
    Alike (MatchCase.mk p o ss) (.mk p' o' ss') :=
  ⟨by simp only [Kin.alike, MatchCase.bare, hp.pattern, h.expr?, h'.stmts]⟩

end Statements

end Alike

end Evalbox.Lang
