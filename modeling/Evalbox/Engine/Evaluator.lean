import Evalbox.Config.Basic
import Evalbox.Deadline.Future
import Evalbox.Engine.Pipeline
import Evalbox.Unit.Wrap

/-!
# The evaluator

An evaluator evaluates snippets one after the other. Each is wrapped into a unit of its own, compiled and
run by a worker under a deadline. The compile target is replaced when it has taken as many units as the
limit allows, or after a worker did not come back in time.
-/

namespace Evalbox

/-- An evaluator. Every unit has a worker of its own, on the thread that `worker` names. -/
structure Evaluator (σ τ π ω κ : Type) where
  pipeline : Pipeline σ τ π ω κ
  limit : Datum
  worker : Nat → τ
  state : PipelineState σ τ π ω κ
  nextUnit : Nat

/-- What a call reports besides its outcome: whether the target was replaced, and the target that was. -/
structure CallReport (κ : Type) where
  outcome : Outcome
  replaced : Option (CompileTarget κ)

namespace Datum

/-- Whether a count has reached a limit. -/
def reachedBy (limit : Datum) (count : Nat) : Except Fault Bool :=
  match limit with
  | int n => .ok ((count : Int) ≥ n)
  | bool b => .ok ((count : Int) ≥ (if b then 1 else 0))
  | float x => .ok (Number.compareInt count x == some .gt || Number.compareInt count x == some .eq)
  | d => .error (.type ("'>=' not supported between instances of 'int' and '" ++ d.typeName ++ "'"))

end Datum

namespace Evaluator

variable {σ τ π ω κ : Type} [BEq τ]

/-- How a target is named in errors. -/
def targetId : String := "<target>"

/-- Whether the target has to be replaced. -/
def mustRotate (e : Evaluator σ τ π ω κ) : Except Fault Bool :=
  let t := e.state.target
  if t.tainted then .ok true else e.limit.reachedBy t.compiled

/-- Replace the target by an empty one. Answers the old one, which is cleared. -/
def rotate (e : Evaluator σ τ π ω κ) : CompileTarget κ × Evaluator σ τ π ω κ :=
  let (old, cache) := e.state.target.clearWith e.state.cache
  (old, { e with state := { e.state with target := .empty, cache, collector := {} } })

/-- Note that a worker of the current target may never end. -/
def taint (e : Evaluator σ τ π ω κ) : Evaluator σ τ π ω κ :=
  { e with state := { e.state with target := { e.state.target with tainted := true } } }

/-- What the caller of a worker makes of how its work ended. -/
def settle (e : Evaluator σ τ π ω κ) (w : WorkEnd) : Outcome × Evaluator σ τ π ω κ :=
  let result : Except Fault (Option Outcome) := match w with
    | .outcome o => (Future.settle (.ok o)).await
    | .raised f => (Future.settle (.error f)).await
    | .stopped | .endless => withDeadline .expired (none : Option (Except Fault Outcome))
  match result with
  | .ok (some o) => (o, e)
  | .ok none => (.timeout, e.taint)
  | .error f => (.internalFailure f, e)

/-- Evaluate a snippet with the target that is in place. -/
def evaluateHere (e : Evaluator σ τ π ω κ) (prelude code : List Char) (resultType : Option String) :
    Outcome × Evaluator σ τ π ω κ :=
  match wrap prelude code (unitName e.nextUnit) with
  | .error f => (.internalFailure (.decoding f.message), { e with nextUnit := e.nextUnit + 1 })
  | .ok u =>
    let (w, state) := e.pipeline.work targetId (e.worker e.nextUnit) u resultType e.state
    { e with state, nextUnit := e.nextUnit + 1 }.settle w

/-- Evaluate a snippet. -/
def evaluate (e : Evaluator σ τ π ω κ) (prelude code : List Char) (resultType : Option String) :
    CallReport κ × Evaluator σ τ π ω κ :=
  match e.mustRotate with
  | .error f => (⟨.internalFailure f, none⟩, e)
  | .ok false =>
    let (o, e) := e.evaluateHere prelude code resultType
    (⟨o, none⟩, e)
  | .ok true =>
    let (old, e) := e.rotate
    let (o, e) := e.evaluateHere prelude code resultType
    (⟨o, some old⟩, e)

end Evaluator

end Evalbox
