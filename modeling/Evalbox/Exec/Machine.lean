import Evalbox.Exec.Import

/-!
# The machine

A machine carries out a task step by step. The tasks that wait for others form its stack; generators that
wait for being woken up lie beside it. A step is a function, so that a run is a sequence of machines and
can be stopped between any two of them.
-/

/-!
## The body of a task

What each kind of task does. Tasks wait for each other; the machine keeps the stack of those that wait.
-/

namespace Evalbox.M

open Lang

/-- What a unit of a snippet and a class of its name come to: the class is made an instance, and the
instance is called. -/
def runUnit (name file : String) (body : List Stmt) (builtins : Ref) (lazyHints : Bool)
    (optimize : Nat) : M Value := do
  let vars ← alloc (.names [("__name__", .text name), ("__doc__", .none), ("__package__", .text ""),
    ("__loader__", .none), ("__spec__", .none), ("__builtins__", .ref builtins), ("__file__", .text file)])
  let module ← make (.module name vars)
  audit "exec" [.text "code"]
  let own := match Check.futuresOf body with
    | .ok (_, fs) => fs.contains "annotations"
    | .error _ => false
  let env : Env := ⟨file, .space vars, [], vars, builtins, [], none, "", lazyHints || own, optimize⟩
  match env.documentation body with
  | .none => pure ()
  | d => setName vars "__doc__" d
  let _ ← frame file (run (.block env body))
  let cls ← valueOf (.getAttr module name)
  let self ← valueOf (.apply cls [] [])
  valueOf (.apply self [] [])

/-- Do what a task asks for. -/
def body (t : Task) : M Signal := do
  let value (m : M Value) : M Signal := do return .value (← m)
  match t with
  | .expr env e => value (exprOf env e)
  | .block env b => block env b
  | .loop env line test b o => loopStep env line test b o
  | .each env line target iter b o => eachStep env line target iter b o
  | .clauses env cs iter sink => clauseStep env cs iter sink
  | .apply f args kwargs => value (applyValue f args kwargs)
  | .enter f vars => value (enterFunction f vars)
  | .produce f vars => value (enterFunction f vars)
  | .comprehend env line cs iter sink =>
    frame env.file (atLine line (run (.clauses env cs (some iter) sink)))
  | .collect iter found => collectStep iter found
  | .quantify all iter => quantifyStep all iter
  | .next iter => do
    match ← nextGiven iter with
    | .item v => return .value v
    | .ended _ => return .next
  | .yieldFrom iter sent => yieldFromStep iter sent
  | .equals a b => value (equalsOf a b)
  | .compare op a b => value (compareOf op a b)
  | .show v ascii => value (do
    let s ← if ascii then asciiText v else showing v
    return .text s)
  | .text v => value (do return .text (← textOf v))
  | .truth v => value (do return .bool (← truthOf v))
  | .getAttr v name => value (getAttr v name)
  | .importName g name package names level => value (importBy g name package names level)
  | .load name => value (importing.load loadTask name)
  | .unit name file b builtins lazyHints optimize => value (runUnit name file b builtins lazyHints optimize)

end Evalbox.M

namespace Evalbox

/-- What waits on the stack: a task for another one, or whoever let a generator run, together with the
exceptions that were being handled there. -/
inductive Frame where
  | waiting (k : Heap → Except Raised Signal → Act Signal)
  | resumed (generator : Nat) (handling : List Ref) (k : Heap → Except Raised Given → Act Signal)

/-- A generator that is not running. -/
inductive Asleep where
  | fresh (task : Task)
  | paused (handling : List Ref) (frames : List Frame) (k : Heap → Wake → Act Signal)
  | gone

instance : Inhabited Asleep := ⟨.gone⟩

/-- A task that is being carried out. -/
structure Machine where
  now : Act Signal
  stack : List Frame
  asleep : Array Asleep

/-- What follows a step. -/
inductive Turn where
  | on (m : Machine)
  | asks (h : Heap) (question : Request) (go : Heap → Reply → Machine)
  | over (h : Heap) (result : Except Raised Signal)

namespace Act

/-- The heap of an action. -/
def heap {α : Type} : Act α → Heap
  | done h _ | call h .. | ask h .. | create h .. | resume h .. | yield h .. => h

end Act

namespace Machine

/-- A machine that begins some work. -/
def begin (h : Heap) (work : M Signal) : Machine := ⟨work h, [], #[]⟩

/-- A machine that begins a task. -/
def start (h : Heap) (t : Task) : Machine := begin h (M.body t)

/-- What a generator that ended gives to whoever let it run. -/
def given : Except Raised Signal → Except Raised Given
  | .ok (.value v) | .ok (.ret v) => .ok (.ended v)
  | .ok _ => .ok (.ended .none)
  | .error e => .error e

/-- Cut the stack at the generator that runs. -/
def cut : List Frame → List Frame →
    Option (List Frame × Nat × List Ref × (Heap → Except Raised Given → Act Signal) × List Frame)
  | _, [] => none
  | above, .resumed g handling k :: rest => some (above.reverse, g, handling, k, rest)
  | above, f :: rest => cut (f :: above) rest

/-- Let a generator run. -/
def wake (stack : List Frame) (asleep : Array Asleep) (h : Heap) (g : Nat) (w : Wake)
    (k : Heap → Except Raised Given → Act Signal) : Machine :=
  let base := .resumed g h.handling k :: stack
  let sleeper := asleep[g]?.getD .gone
  let asleep := asleep.setIfInBounds g .gone
  match sleeper with
  | .fresh t =>
    match w with
    | .send _ => ⟨M.body t h, base, asleep⟩
    | .throw e => ⟨.done h (.error e), base, asleep⟩
  | .paused handling frames next => ⟨next { h with handling := handling ++ h.handling } w, frames ++ base, asleep⟩
  | .gone => ⟨k h (.ok (.ended .none)), stack, asleep⟩

/-- One step. -/
def step : Machine → Turn
  | ⟨.done h (.ok (.goOn t)), stack, asleep⟩ => .on ⟨M.body t h, stack, asleep⟩
  | ⟨.done h r, [], _⟩ => .over h r
  | ⟨.done h r, .waiting k :: rest, asleep⟩ => .on ⟨k h r, rest, asleep⟩
  | ⟨.done h r, .resumed _ handling k :: rest, asleep⟩ => .on ⟨k { h with handling } (given r), rest, asleep⟩
  | ⟨.call h t k, stack, asleep⟩ => .on ⟨M.body t h, .waiting k :: stack, asleep⟩
  | ⟨.ask h q k, stack, asleep⟩ => .asks h q fun h r => ⟨k h r, stack, asleep⟩
  | ⟨.create h t k, stack, asleep⟩ => .on ⟨k h asleep.size, stack, asleep.push (.fresh t)⟩
  | ⟨.resume h g w k, stack, asleep⟩ => .on (wake stack asleep h g w k)
  | ⟨.yield h v k, stack, asleep⟩ =>
    match cut [] stack with
    | none => .over h (.ok (.value v))
    | some (above, g, handling, next, rest) =>
      let own := h.handling.take (h.handling.length - handling.length)
      .on ⟨next { h with handling } (.ok (.item v)), rest, asleep.setIfInBounds g (.paused own above k)⟩

/-- The machine after an exception came upon it from outside. -/
def interrupt (m : Machine) (cls : String) : Machine :=
  let h := m.now.heap
  let r := h.objs.size
  let info : ExceptionInfo := ⟨classRef cls, [], none, h.handling.head?, false, [], []⟩
  { m with now := .done { h with objs := h.objs.push (.exception info) } (.error ⟨r, none, false⟩) }

end Machine

end Evalbox
