import Evalbox.Lang.Tree
import Evalbox.Number.Arithmetic
import Evalbox.Policy.Import

/-!
# Values

A `Value` is what an expression evaluates to. Values without identity are written out; everything else
is a reference to an `Obj` on the heap. Functions and methods of the language itself are known by name.
-/

namespace Evalbox

/-- An object on the heap. -/
abbrev Ref := Nat

/-- What an expression evaluates to. -/
inductive Value where
  | none
  | bool (value : Bool)
  | int (value : Int)
  | float (value : Float)
  | complex (re im : Float)
  | text (value : String)
  | bytes (value : List UInt8)
  | ellipsis
  | notImplemented
  | tuple (items : List Value)
  | range (start stop step : Int)
  | slice (start stop step : Value)
  /-- a function of the language -/
  | native (name : String)
  /-- a method of a value of the language's own types -/
  | method (self : Value) (name : String)
  | ref (ref : Ref)
  deriving Inhabited

namespace Value

/-- The integer that a value is. -/
def int? : Value → Option Int
  | bool b => some (if b then 1 else 0)
  | int n => some n
  | _ => Option.none

mutual

/-- Whether two values are the same key: equal numbers, equal texts, or one object. -/
def sameKey : Value → Value → Bool
  | none, none => true
  | bool a, bool b => a == b
  | bool a, int b | int b, bool a => (if a then 1 else 0) == b
  | int a, int b => a == b
  | float a, float b => a == b
  | float a, int b | int b, float a => Number.whole? a == some b
  | float a, bool b | bool b, float a => a == (if b then 1 else 0)
  | complex a b, complex c d => a == c && b == d
  | text a, text b => a == b
  | bytes a, bytes b => a == b
  | ellipsis, ellipsis => true
  | notImplemented, notImplemented => true
  | tuple xs, tuple ys => sameKeys xs ys
  | range a b c, range d e f => a == d && b == e && c == f
  | native a, native b => a == b
  | method s a, method t b => a == b && sameKey s t
  | ref a, ref b => a == b
  | _, _ => false

def sameKeys : List Value → List Value → Bool
  | [], [] => true
  | x :: xs, y :: ys => sameKey x y && sameKeys xs ys
  | _, _ => false

end

/-- How many places the table of a set has when it was filled item by item: the first of 8, 32, 128 and so
on of which the items take up less than three fifths. The fuel bounds the steps. -/
def tableSize (items : Nat) : Nat → Nat → Nat
  | 0, size => size
  | fuel + 1, size => if 5 * items < 3 * (size - 1) then size else tableSize items fuel (4 * size)

/-- The place of a whole number in a table before others are considered. -/
def tablePlace (size : Nat) (n : Int) : Nat :=
  ((if n = -1 then -2 else n.tmod (Int.pow 2 61 - 1)) % size).toNat

/-- The items of a set in the order in which it lists them: whole numbers by their places in its table,
anything else as it came. -/
def listed (items : List Value) : List Value :=
  match items.mapM int? with
  | some ns =>
    let size := tableSize items.length items.length 8
    (((ns.map (tablePlace size)).zip items).mergeSort fun a b => a.1 ≤ b.1).map (·.2)
  | Option.none => items

theorem length_of_mapM {items : List Value} {ns : List Int} (h : items.mapM int? = some ns) :
    ns.length = items.length := by
  induction items generalizing ns with
  | nil => simp_all
  | cons v vs ih =>
    simp only [List.mapM_cons, Option.bind_eq_bind, Option.bind_eq_some_iff, Option.pure_def,
      Option.some.injEq] at h
    obtain ⟨_, _, rest, hr, rfl⟩ := h
    simp [ih hr]

/-- Listing a set neither loses nor repeats an item. -/
theorem listed_perm (items : List Value) : (listed items).Perm items := by
  unfold listed
  split
  · next ns h =>
    have hl := length_of_mapM h
    refine ((List.mergeSort_perm _ _).map _).trans ?_
    rw [List.map_snd_zip (by simp [hl])]
  · exact List.Perm.refl _

end Value

/-- Variables by name, in the order in which they were first bound. -/
abbrev Names := List (String × Value)

namespace Names

/-- Bind a name: in place if it is bound, at the end otherwise. -/
def put (name : String) (v : Value) : Names → Names
  | [] => [(name, v)]
  | (n, w) :: rest => if n = name then (n, v) :: rest else (n, w) :: put name v rest

def erase (ns : Names) (name : String) : Names := ns.filter (·.1 ≠ name)

end Names

/-- Where the names of a block live: in the variables of a call, of which `locals` are its own, or in
a namespace that is searched name by name. -/
inductive Scope where
  | call (vars : Ref) (locals : List String)
  | space (vars : Ref)
  deriving Inhabited

/-- The surroundings in which code runs. -/
structure Env where
  file : String
  scope : Scope
  /-- the variables of the calls around, innermost first -/
  enclosing : List (Ref × List String)
  globals : Ref
  builtins : Ref
  /-- names that the block declares global -/
  global : List String
  /-- the class around, by which private names are spelled -/
  className : Option String
  /-- what the qualified names of functions and classes begin with -/
  path : String
  lazyHints : Bool
  /-- at level 1 assertions are dropped, at level 2 documentation too -/
  optimize : Nat
  deriving Inhabited

/-- How a parameter takes an argument. -/
inductive ParamKind where
  | positionalOnly
  | plain
  | keywordOnly
  deriving DecidableEq, Repr, Inhabited

/-- A parameter with its default. -/
structure Parameter where
  name : String
  kind : ParamKind
  default : Option Value
  deriving Inhabited

/-- What a function runs. -/
inductive FunctionBody where
  | statements (body : List Lang.Stmt)
  | expression (body : Lang.Expr)
  deriving Inhabited

/-- A function of a snippet or a module. `env` holds where it was defined. -/
structure Function where
  name : String
  qualname : String
  module : Value
  doc : Value
  params : List Parameter
  rest : Option String
  keywordRest : Option String
  body : FunctionBody
  locals : List String
  globalNames : List String
  generator : Bool
  coroutine : Bool
  env : Env
  attrs : Names
  hints : Value
  deriving Inhabited

/-- A class. `lineage` lists the class and those above it in the order in which attributes are looked
up. -/
structure ClassInfo where
  name : String
  qualname : String
  module : String
  bases : List Ref
  lineage : List Ref
  attrs : Names
  deriving Inhabited

/-- An exception. The frames that it went through are listed outermost first. -/
structure ExceptionInfo where
  cls : Ref
  args : List Value
  cause : Option Ref
  context : Option Ref
  suppressed : Bool
  frames : List (String × Int)
  attrs : Names
  deriving Inhabited

/-- Iterators of the language. -/
inductive IterState where
  | items (rest : List Value)
  /-- the items of a set or the keys of a dict, which must not change its size meanwhile -/
  | members (home : Ref) (all : List Value) (rest : List Value)
  | listAt (list : Ref) (index : Nat)
  | count (next stop step : Int)
  | enumerate (inner : Value) (index : Int)
  | zip (inners : List Value)
  | map (f : Value) (inners : List Value)
  | filter (f : Value) (inner : Value)
  | calls (f : Value) (sentinel : Value)
  | sequence (object : Value) (index : Int)
  deriving Inhabited

/-- What a generator is doing. -/
inductive GeneratorState where
  | fresh
  | suspended
  | running
  | finished
  deriving DecidableEq, Repr, Inhabited

/-- Source text that was compiled by a snippet. -/
inductive CodeBody where
  | statements (body : List Lang.Stmt)
  | expression (body : Lang.Expr)
  deriving Inhabited

/-- An open file: its path and the place in it. -/
structure OpenFile where
  path : String
  readable : Bool
  writable : Bool
  append : Bool
  binary : Bool
  position : Nat
  closed : Bool
  mode : String
  deriving Inhabited

/-- Objects on the heap. -/
inductive Obj where
  | list (items : Array Value)
  | dict (entries : List (Value × Value))
  | set (frozen : Bool) (items : List Value)
  | names (vars : Names)
  | function (f : Function)
  | bound (func self : Value)
  | cls (info : ClassInfo)
  | instanceOf (cls : Ref) (attrs : Names)
  | exception (info : ExceptionInfo)
  | module (name : String) (vars : Ref)
  | iterator (type : String) (state : IterState)
  | generator (id : Nat) (state : GeneratorState) (name qualname type : String)
  | importer (guarded : ImportGuard)
  | code (file : String) (body : CodeBody)
  | file (file : OpenFile)
  | property (get set delete doc : Value)
  | static (func : Value)
  | ofClass (func : Value)
  | super (cls : Ref) (self : Value) (selfClass : Ref)
  | thread (target : Value) (args : List Value) (kwargs : Names) (started : Bool)
  | console
  /-- the stream for errors, which nobody reads -/
  | errors
  | alias (origin : Value) (args : List Value)
  /-- the keys, values or entries of a dict, by the name of the type -/
  | view (type : String) (dict : Ref)
  | plain
  deriving Inhabited

end Evalbox
