import Evalbox.World.Export

/-!
# Driving a machine

A machine is driven in a world until it is through, or until its time is up: the clock of the world passes
a deadline, the steps are used up, or the machine waits for something that never comes. A machine whose
time is up is stopped by an exception, and given some more time to come to an end.
-/

namespace Evalbox

/-- How far a machine is driven. -/
structure Budget where
  steps : Nat
  deadline : Nat
  deriving Repr, Inhabited

/-- Where a machine stands when it is no longer driven. -/
inductive Halt where
  | through (h : Heap) (result : Except Raised Signal)
  | expired (m : Machine)
  | blocked (h : Heap)

namespace World

/-- Drive a machine. -/
def drive (deadline : Nat) : Nat → Machine → World → Halt × World
  | 0, m, w => (.expired m, w)
  | steps + 1, m, w =>
    match m.step with
    | .on next => drive deadline steps next w
    | .over h r => (.through h r, w)
    | .asks h q go =>
      match w.answer q with
      | none => (.blocked h, w)
      | some (r, w) =>
        if w.world.clock > deadline then (.expired (go h r), w) else drive deadline steps (go h r) w

/-- Keep a heap for what comes next. -/
def settle (w : World) (h : Heap) : World := w.modify fun o => { o with heap := { h with handling := [], showing := [] } }

/-- How much a text of a value may cost. -/
def textBudget : Nat := 20000

/-- Carry out a short task for a text. -/
def textOf (w : World) (t : Task) : String × World :=
  match w.drive w.world.clock textBudget (.start w.world.heap t) with
  | (.through h (.ok (.value (.text s))), w) => (s, w.settle h)
  | (_, w) => ("", w)

/-- An exception that left a snippet. -/
def thrown (w : World) (r : Ref) : Thrown × World :=
  let refs := w.world.heap.linked (4 * w.world.heap.objs.size + 4) [] [r]
  let raisings := w.world.heap.raisings refs
  let (faults, w) := refs.foldl (fun (acc : List (Nat × Fault) × World) e =>
    let (s, w) := acc.2.textOf (.text (.ref e))
    (acc.1 ++ [(e, ⟨w.world.heap.className (w.world.heap.exceptionInfo e).cls, s⟩)], w)) ([], w)
  (⟨r, raisings, faults⟩, w)

/-- How a run ended that came through. -/
def ending (w : World) (h : Heap) (r : Except Raised Signal) : Ending Value Ref × World :=
  let w := w.settle h
  match r with
  | .ok (.value v) | .ok (.ret v) => (.returned v, w)
  | .ok _ => (.returned .none, w)
  | .error e =>
    if h.isSubclass (h.exceptionInfo e.exc).cls (classRef Fault.cancelled.kind) then (.stopped, w)
    else (.failed e.exc, w)

/-- How many steps a machine that was stopped is given. -/
def graceSteps : Nat := 20000

/-- Carry out work on a thread, and stop it when its budget is used up. -/
def perform (w : World) (t : ThreadId) (work : M Signal) (budget : Budget) : Ending Value Ref × World :=
  let before := w.world.threads
  let w := w.modify fun o => { o with threads := t :: o.threads }
  let (r, w) : Ending Value Ref × World :=
    match w.drive budget.deadline budget.steps (.begin w.world.heap work) with
    | (.through h r, w) => w.ending h r
    | (.blocked h, w) => (.endless, w.settle h)
    | (.expired m, w) =>
      match w.drive (budget.deadline + 2000000) graceSteps (m.interrupt Fault.cancelled.kind) with
      | (.through h _, w) => (.stopped, w.settle h)
      | (.blocked h, w) => (.endless, w.settle h)
      | (.expired m, w) => (.endless, w.settle m.now.heap)
  (r, w.modify fun o => { o with threads := before })

/-- Carry out a task on a thread, and stop it when its budget is used up. -/
def runTask (w : World) (t : ThreadId) (task : Task) (budget : Budget) : Ending Value Ref × World :=
  w.perform t (M.body task) budget

end World

end Evalbox
