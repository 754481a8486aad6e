import Evalbox.Object.Classes
import Evalbox.Datum.Basic
import Evalbox.Failure
import Evalbox.Files.Read
import Evalbox.Modules.Find
import Evalbox.Policy.Audit

/-!
# Actions

Code runs in small steps on a heap. An `Act` is what a step comes to: it is done, it needs another
task to be carried out first, it asks something of the world outside, or it touches a generator. The
rest of the work is a function of the answer, so that a run can stop between any two steps and go on
later.

`M α` is work on the heap with an answer in `α`. It may fail with an exception.
-/

namespace Evalbox

/-- What a snippet and its modules work on. `handling` are the exceptions that are being handled,
innermost first, and `showing` the containers whose texts are being made; `hosted` are the modules of
the host that were imported, `owned` those from the classpath, in the order in which they were bound,
and `entries` is the classpath. `descriptors` are the files that were opened by number. -/
structure Heap where
  objs : Array Obj
  handling : List Ref
  showing : List Ref
  hosted : Names
  owned : Names
  entries : List String
  descriptors : List (Int × Ref)
  deriving Inhabited

/-- An exception on its way up. `line` is where it left the block that is being left, and `recorded`
says that this block has been noted in it. -/
structure Raised where
  exc : Ref
  line : Option Nat
  recorded : Bool
  deriving Inhabited

/-- Where the items of a comprehension go. -/
inductive Sink where
  | list (target : Ref) (item : Lang.Expr)
  | set (target : Ref) (item : Lang.Expr)
  | dict (target : Ref) (key value : Lang.Expr)
  | yields (item : Lang.Expr)
  deriving Inhabited

/-- A piece of work that another one waits for. -/
inductive Task where
  | expr (env : Env) (e : Lang.Expr)
  | block (env : Env) (body : List Lang.Stmt)
  | loop (env : Env) (line : Nat) (test : Lang.Expr) (body orelse : List Lang.Stmt)
  | each (env : Env) (line : Nat) (target : Lang.Expr) (iter : Value) (body orelse : List Lang.Stmt)
  | clauses (env : Env) (clauses : List Lang.Clause) (iter : Option Value) (sink : Sink)
  | apply (f : Value) (args : List Value) (kwargs : Names)
  /-- run the body of a function in its variables -/
  | enter (f : Function) (vars : Ref)
  /-- run the body of a generator -/
  | produce (f : Function) (vars : Ref)
  /-- run a comprehension in a block of its own -/
  | comprehend (env : Env) (line : Nat) (clauses : List Lang.Clause) (iter : Value) (sink : Sink)
  | collect (iter : Value) (found : List Value)
  | quantify (all : Bool) (iter : Value)
  | next (iter : Value)
  | yieldFrom (iter : Value) (send : Value)
  | equals (a b : Value)
  | compare (op : Lang.CompareOp) (a b : Value)
  | show (v : Value) (ascii : Bool)
  | text (v : Value)
  | truth (v : Value)
  | getAttr (v : Value) (name : String)
  | importName (guarded : ImportGuard) (name : String) (package : Option String) (names : Option (List String))
      (level : Int)
  | load (name : String)
  /-- run the unit of a snippet, and call an instance of the class of its name -/
  | unit (name : String) (file : String) (body : List Lang.Stmt) (builtins : Ref)
      (lazyHints : Bool) (optimize : Nat)
  deriving Inhabited

/-- How a task ends, if it does not fail. -/
inductive Signal where
  | value (v : Value)
  /-- the block went to its end -/
  | next
  | ret (v : Value)
  | breakLoop
  | nextLoop
  /-- it ends as another task does, which takes its place -/
  | goOn (task : Task)
  deriving Inhabited

/-- What code asks of the world. -/
inductive Request where
  | write (text : List Char)
  | audit (event : AuditEvent)
  | isTerminal
  | encoding
  | sleep (micros : Nat)
  | enterThread
  | leaveThread
  | find (name : String) (path : List String)
  | source (path : String)
  | lock
  | unlock
  | readFile (path : String)
  | writeFile (path : String) (bytes : List UInt8)
  | listFiles (path : String)
  | currentDirectory
  deriving Inhabited

/-- What the world answers. -/
inductive Reply where
  | done
  | fault (fault : Fault)
  | refused (error : OpenError)
  | yes (b : Bool)
  | text (s : String)
  | bytes (bs : Option (List UInt8))
  | spec (s : Option ModuleSpec)
  | names (xs : List String)
  deriving Inhabited

/-- How a suspended generator is woken up. -/
inductive Wake where
  | send (v : Value)
  | throw (r : Raised)
  deriving Inhabited

/-- How a generator gives control back. -/
inductive Given where
  | item (v : Value)
  | ended (v : Value)
  deriving Inhabited

/-- What a step of work comes to. -/
inductive Act (α : Type) where
  | done (h : Heap) (r : Except Raised α)
  | call (h : Heap) (t : Task) (k : Heap → Except Raised Signal → Act α)
  | ask (h : Heap) (q : Request) (k : Heap → Reply → Act α)
  /-- make a generator for a task -/
  | create (h : Heap) (t : Task) (k : Heap → Nat → Act α)
  /-- let a generator run up to its next item -/
  | resume (h : Heap) (generator : Nat) (w : Wake) (k : Heap → Except Raised Given → Act α)
  /-- hand an item to whoever let the generator run -/
  | yield (h : Heap) (v : Value) (k : Heap → Wake → Act α)

namespace Act

/-- Go on with what was done. -/
def bind {α β : Type} (a : Act α) (f : Heap → Except Raised α → Act β) : Act β :=
  match a with
  | done h r => f h r
  | call h t k => .call h t fun h r => (k h r).bind f
  | ask h q k => .ask h q fun h r => (k h r).bind f
  | create h t k => .create h t fun h n => (k h n).bind f
  | resume h g w k => .resume h g w fun h r => (k h r).bind f
  | yield h v k => .yield h v fun h w => (k h w).bind f

end Act

/-- Work on the heap. -/
def M (α : Type) : Type := Heap → Act α

namespace M

variable {α β : Type}

instance : Monad M where
  pure a := fun h => .done h (.ok a)
  bind m f := fun h => (m h).bind fun h r =>
    match r with
    | .ok a => f a h
    | .error e => .done h (.error e)

/-- Fail with an exception that is on its way. -/
def fail (r : Raised) : M α := fun h => .done h (.error r)

/-- Do the work and answer how it ended. -/
def attempt (m : M α) : M (Except Raised α) := fun h => (m h).bind fun h r => .done h (.ok r)

/-- Note the line at which an exception left, unless it is known. -/
def atLine (line : Nat) (m : M α) : M α := fun h => (m h).bind fun h r =>
  match r with
  | .error e => .done h (.error (if e.line.isSome then e else { e with line := some line }))
  | r => .done h r

/-- Have a task carried out. -/
def run (t : Task) : M Signal := fun h => .call h t fun h r => .done h r

/-- Have a task carried out for its value. -/
def valueOf (t : Task) : M Value := do
  match ← run t with
  | .value v | .ret v => pure v
  | _ => pure .none

def ask (q : Request) : M Reply := fun h => .ask h q fun h r => .done h (.ok r)

def heap : M Heap := fun h => .done h (.ok h)

/-- Look at an object. -/
def obj (r : Ref) : M Obj := fun h => .done h (.ok (h.objs[r]?.getD .plain))

/-- Put a new object on the heap. -/
def alloc (o : Obj) : M Ref := fun h =>
  let r := h.objs.size
  .done { h with objs := h.objs.push o } (.ok r)

/-- Put a new object on the heap, as a value. -/
def make (o : Obj) : M Value := do return .ref (← alloc o)

/-- Change an object. -/
def put (r : Ref) (o : Obj) : M Unit := fun h => .done { h with objs := h.objs.setIfInBounds r o } (.ok ())

/-- Put a value at the end of a list. -/
def append (r : Ref) (v : Value) : M Unit := fun h =>
  let push : Obj → Obj
    | .list xs => .list (xs.push v)
    | o => o
  .done { h with objs := h.objs.modify r push } (.ok ())

def change (f : Heap → Heap) : M Unit := fun h => .done (f h) (.ok ())

end M

end Evalbox
